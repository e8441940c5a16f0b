import FpsMaxxing.Streams.Chunked
import Mathlib.Algebra.Group.Nat.Defs

/-! Length-delimited frames: a big-endian `u32` byte count, then that many bytes. -/

namespace FpsMaxxing

open Streams

abbrev Bytes := List UInt8

inductive ErrorKind
  | unexpectedEof
  | timedOut
  | other
  deriving DecidableEq

structure IoError where
  kind : ErrorKind
  text : String
  deriving DecidableEq

inductive FrameError
  | io (error : IoError)
  | tooLarge (length : UInt64)
  | empty
  deriving DecidableEq

def maxFrameBytes : UInt32 := 1048576

def toBeBytes (n : UInt32) : Bytes :=
  [.ofNat (n.toNat / 2 ^ 24), .ofNat (n.toNat / 2 ^ 16), .ofNat (n.toNat / 2 ^ 8), .ofNat n.toNat]

def fromBeBytes : Bytes → UInt32
  | [a, b, c, d] => .ofNat (a.toNat * 2 ^ 24 + b.toNat * 2 ^ 16 + c.toNat * 2 ^ 8 + d.toNat)
  | _ => 0

/-- How a write ends early: the bytes that still got out, and the error. -/
abbrev WriteFault := ℕ × IoError

/-- Both `write_all` calls and the flush; the second component is what has been written. -/
def writeFrame (fault : Option WriteFault) (body written : Bytes) :
    Except FrameError Unit × Bytes :=
  if body.isEmpty then (.error .empty, written)
  else
    let len : UInt64 := if body.length < 2 ^ 64 then .ofNat body.length else 0xFFFFFFFFFFFFFFFF
    if len > maxFrameBytes.toUInt64 then (.error (.tooLarge len), written)
    else
      let frame := toBeBytes len.toUInt32 ++ body
      match fault with
      | none => (.ok (), written ++ frame)
      | some (n, error) => (.error (.io error), written ++ frame.take n)

structure Reader where
  stream : Chunked UInt8
  -- what the transport fails with after the stream; nothing if the peer closes it
  failure : Option IoError

namespace Reader

def read (n : ℕ) (reader : Reader) : Except IoError Bytes × Reader :=
  match reader.stream.read n, reader.failure with
  | ([], _), some error => (.error error, reader)
  | (bytes, stream), _ => (.ok bytes, { reader with stream := stream })

def readExact (n : ℕ) (reader : Reader) : Except IoError Bytes × Reader :=
  match reader.stream.readExact n with
  | (some bytes, stream) => (.ok bytes, { reader with stream := stream })
  | (none, stream) =>
    (.error (reader.failure.getD ⟨.unexpectedEof, "early eof"⟩), { reader with stream := stream })

end Reader

def truncatedPrefix : FrameError := .io ⟨.unexpectedEof, "truncated frame length prefix"⟩

def fillPrefix (filled : Bytes) (reader : Reader) : Except FrameError (Option Bytes) × Reader :=
  if filled.length < 4 then
    match reader.read (4 - filled.length) with
    | (.error error, reader) => (.error (.io error), reader)
    | (.ok [], reader) => (if filled.isEmpty then .ok none else .error truncatedPrefix, reader)
    | (.ok (byte :: bytes), reader) => fillPrefix (filled ++ byte :: bytes) reader
  else (.ok (some filled), reader)
termination_by 4 - filled.length
decreasing_by simp; omega

def readFrame (reader : Reader) : Except FrameError (Option Bytes) × Reader :=
  match fillPrefix [] reader with
  | (.error error, reader) => (.error error, reader)
  | (.ok none, reader) => (.ok none, reader)
  | (.ok (some lenBuf), reader) =>
    let len := fromBeBytes lenBuf
    if len = 0 then (.error .empty, reader)
    else if len > maxFrameBytes then (.error (.tooLarge len.toUInt64), reader)
    else
      match reader.readExact len.toNat with
      | (.ok body, reader) => (.ok (some body), reader)
      | (.error error, reader) => (.error (.io error), reader)

end FpsMaxxing
