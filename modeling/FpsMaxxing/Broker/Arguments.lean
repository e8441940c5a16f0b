import FpsMaxxing.Effects.Checks
import Mathlib.Data.List.Nodup
import Mathlib.Data.List.TakeWhile

/-! The broker's command line. -/

namespace FpsMaxxing.CommandLine

open Effects

def splitOnce (c : Char) (text : String) : Option (String × String) :=
  match text.toList.dropWhile (· ≠ c) with
  | [] => none
  | _ :: tail => some (.ofList (text.toList.takeWhile (· ≠ c)), .ofList tail)

section SplitOnce

variable {c : Char} {text head tail : String}

lemma splitOnce_eq_none (h : c ∉ text.toList) : splitOnce c text = none := by
  have hd : text.toList.dropWhile (· ≠ c) = [] := by
    apply List.dropWhile_eq_nil_iff.mpr
    intro x hx
    simpa using fun he : x = c => h (he ▸ hx)
  rw [splitOnce, hd]

lemma splitOnce_append (h : c ∉ head.toList) (tail : String) :
    splitOnce c (head ++ .singleton c ++ tail) = some (head, tail) := by
  have hp : ∀ x ∈ head.toList, decide (x ≠ c) = true := by
    intro x hx
    simpa using fun he : x = c => h (he ▸ hx)
  have hl : (head ++ .singleton c ++ tail).toList = head.toList ++ c :: tail.toList := by simp
  rw [splitOnce, hl, List.dropWhile_append_of_pos hp, List.takeWhile_append_of_pos hp,
    List.dropWhile_cons_of_neg (by simp), List.takeWhile_cons_of_neg (by simp)]
  simp

lemma eq_append_of_splitOnce (h : splitOnce c text = some (head, tail)) :
    text = head ++ .singleton c ++ tail := by
  rw [splitOnce] at h
  cases hd : text.toList.dropWhile (· ≠ c) with
  | nil => rw [hd] at h; cases h
  | cons x rest =>
    have hx : x = c := by
      have hn : text.toList.dropWhile (· ≠ c) ≠ [] := by rw [hd]; exact List.cons_ne_nil _ _
      have hh := List.head_dropWhile_not (· ≠ c) hn
      simp only [hd, List.head_cons] at hh
      simpa using hh
    subst hx
    rw [hd] at h
    obtain ⟨rfl, rfl⟩ := Prod.mk.inj (Option.some.inj h)
    apply String.toList_injective
    have hl := List.takeWhile_append_dropWhile (p := (· ≠ x)) (l := text.toList)
    rw [hd] at hl
    simpa using hl.symm

end SplitOnce

/-- An argument as `OsString::into_string` finds it: text, or bytes that are not UTF-8 together with
the text `to_string_lossy` makes of them. -/
inductive OsString
  | utf8 (text : String)
  | other (lossy : String)

inductive ArgError
  | missingValue (flag : String)
  | repeated (flag : String)
  | unrecognized (argument : String)
  | notUnicode (argument : String)
  deriving DecidableEq

def flags : List String := ["--socket", "--journal"]

def helpFlags : List String := ["--help", "-h"]

def ArgError.text : ArgError → String
  | missingValue flag => flag ++ " requires a value"
  | repeated flag => flag ++ " was given more than once"
  | unrecognized argument =>
    "unrecognized argument " ++ argument ++ "; expected one of " ++ ", ".intercalate flags
  | notUnicode argument => "argument " ++ argument ++ " is not valid UTF-8"

structure Options where
  socket : Option String
  journal : Option String
  deriving DecidableEq

inductive Invocation
  | run (options : Options)
  | help
  deriving DecidableEq

inductive Slot
  | socket
  | journal
  deriving DecidableEq

namespace Slot

def flag : Slot → String
  | socket => "--socket"
  | journal => "--journal"

def named : String → Option Slot
  | "--socket" => some socket
  | "--journal" => some journal
  | _ => none

def of : Slot → Options → Option String
  | socket, options => options.socket
  | journal, options => options.journal

def set (value : String) : Slot → Options → Options
  | socket, options => { options with socket := some value }
  | journal, options => { options with journal := some value }

end Slot

def OsString.intoString : OsString → Except ArgError String
  | utf8 text => .ok text
  | other lossy => .error (.notUnicode lossy)

def looksLikeFlag (value : String) : Bool :=
  "--".toList.isPrefixOf value.toList || helpFlags.contains value

def split (argument : String) : String × Option String :=
  match splitOnce '=' argument with
  | some (flag, value) => (flag, some value)
  | none => (argument, none)

def valueOf (flag : String) :
    Option String → List OsString → Except ArgError (String × List OsString)
  | some value, arguments => .ok (value, arguments)
  | none, [] => .error (.missingValue flag)
  | none, next :: arguments => do
    let value ← next.intoString
    rejectIf (looksLikeFlag value) (.missingValue flag)
    return (value, arguments)

def turn (options : Options) (argument : OsString) (arguments : List OsString) :
    Except ArgError (Option (Options × List OsString)) := do
  let argument ← argument.intoString
  if argument ∈ helpFlags then return none
  let (flag, inline) := split argument
  let slot ← okOr (Slot.named flag) (.unrecognized argument)
  rejectIf (slot.of options).isSome (.repeated flag)
  let (value, rest) ← valueOf flag inline arguments
  rejectIf (value = "") (.missingValue flag)
  return some (slot.set value options, rest)

lemma length_of_valueOf {flag : String} {inline : Option String} {arguments : List OsString}
    {r : String × List OsString} (h : valueOf flag inline arguments = .ok r) :
    r.2.length ≤ arguments.length := by
  match inline, arguments with
  | some _, _ => cases h; exact le_rfl
  | none, [] => cases h
  | none, next :: arguments =>
    simp only [valueOf, bind_eq_ok, pure_eq_ok] at h
    obtain ⟨_, _, _, _, rfl⟩ := h
    exact Nat.le_succ _

lemma length_of_turn {options options' : Options} {argument : OsString}
    {arguments rest : List OsString}
    (h : turn options argument arguments = .ok (some (options', rest))) :
    rest.length ≤ arguments.length := by
  simp only [turn, bind_eq_ok] at h
  obtain ⟨text, -, h⟩ := h
  split at h
  · cases h
  · simp only [bind_eq_ok, pure_eq_ok] at h
    obtain ⟨_, -, _, -, r, hr, _, -, h⟩ := h
    cases h
    exact length_of_valueOf hr

def parseFrom (options : Options) : List OsString → Except ArgError Invocation
  | [] => .ok (.run options)
  | argument :: arguments =>
    match _h : turn options argument arguments with
    | .error e => .error e
    | .ok none => .ok .help
    | .ok (some (options, rest)) => parseFrom options rest
termination_by arguments => arguments.length
decreasing_by exact Nat.lt_succ_of_le (length_of_turn _h)

def parseArgs (arguments : List OsString) : Except ArgError Invocation :=
  parseFrom ⟨none, none⟩ arguments

section Parse

variable {options options' : Options} {argument : OsString} {arguments rest : List OsString}

lemma parseFrom_nil : parseFrom options [] = .ok (.run options) := by
  rw [parseFrom]

lemma parseFrom_error {e : ArgError} (h : turn options argument arguments = .error e) :
    parseFrom options (argument :: arguments) = .error e := by
  rw [parseFrom]
  split <;> simp_all

lemma parseFrom_help (h : turn options argument arguments = .ok none) :
    parseFrom options (argument :: arguments) = .ok .help := by
  rw [parseFrom]
  split <;> simp_all

lemma parseFrom_some (h : turn options argument arguments = .ok (some (options', rest))) :
    parseFrom options (argument :: arguments) = parseFrom options' rest := by
  rw [parseFrom]
  split <;> simp_all

end Parse

/-! What one turn does, by the shape of the argument it starts at. -/

section Turn

variable {text value : String} {slot : Slot} {options : Options} {arguments : List OsString}

lemma Slot.named_flag (slot : Slot) : named slot.flag = some slot := by
  cases slot <;> rfl

lemma Slot.flag_of_named (h : named text = some slot) : text = slot.flag := by
  unfold named at h
  split at h <;> cases h <;> rfl

lemma eq_notMem_flag (slot : Slot) : '=' ∉ slot.flag.toList := by
  cases slot <;> decide

lemma eq_notMem_helpFlags (h : text ∈ helpFlags) : '=' ∉ text.toList := by
  rcases List.mem_pair.mp h with rfl | rfl <;> decide

lemma flag_notMem_helpFlags (slot : Slot) : slot.flag ∉ helpFlags := by
  cases slot <;> decide

lemma inline_notMem_helpFlags (slot : Slot) (value : String) :
    slot.flag ++ "=" ++ value ∉ helpFlags := by
  intro h
  apply eq_notMem_helpFlags h
  simp

lemma split_flag (slot : Slot) : split slot.flag = (slot.flag, none) := by
  rw [split, splitOnce_eq_none (eq_notMem_flag slot)]

lemma split_inline (slot : Slot) (value : String) :
    split (slot.flag ++ "=" ++ value) = (slot.flag, some value) := by
  have hs : splitOnce '=' (slot.flag ++ "=" ++ value) = some (slot.flag, value) :=
    splitOnce_append (eq_notMem_flag slot) value
  rw [split, hs]

def Names (slot : Slot) (text : String) : Prop :=
  text = slot.flag ∨ ∃ value, text = slot.flag ++ "=" ++ value

lemma Names.split (h : Names slot text) : (split text).1 = slot.flag := by
  obtain rfl | ⟨value, rfl⟩ := h
  · rw [split_flag]
  · rw [split_inline]

lemma Names.notMem_helpFlags (h : Names slot text) : text ∉ helpFlags := by
  obtain rfl | ⟨value, rfl⟩ := h
  · exact flag_notMem_helpFlags slot
  · exact inline_notMem_helpFlags slot value

lemma named_split_eq_none (h : ∀ slot, ¬ Names slot text) : Slot.named (split text).1 = none := by
  cases hn : Slot.named (split text).1 with
  | none => rfl
  | some slot =>
    have hf := Slot.flag_of_named hn
    refine absurd ?_ (h slot)
    cases hs : splitOnce '=' text with
    | none =>
      rw [CommandLine.split, hs] at hf
      exact .inl hf
    | some parts =>
      rw [CommandLine.split, hs] at hf
      have hf : parts.1 = slot.flag := hf
      have ht := eq_append_of_splitOnce hs
      rw [hf] at ht
      exact .inr ⟨parts.2, ht⟩

lemma turn_help (h : text ∈ helpFlags) : turn options (.utf8 text) arguments = .ok none := by
  simp only [turn, OsString.intoString, ok_bind, if_pos h]
  rfl

lemma turn_unnamed (hh : text ∉ helpFlags) (hn : ∀ slot, ¬ Names slot text) :
    turn options (.utf8 text) arguments = .error (.unrecognized text) := by
  simp only [turn, OsString.intoString, ok_bind, if_neg hh, named_split_eq_none hn]
  rfl

lemma Names.turn (h : Names slot text) :
    turn options (.utf8 text) arguments = (do
      rejectIf (slot.of options).isSome (.repeated slot.flag)
      let (value, rest) ← valueOf slot.flag (CommandLine.split text).2 arguments
      rejectIf (value = "") (.missingValue slot.flag)
      return some (slot.set value options, rest)) := by
  simp only [CommandLine.turn, OsString.intoString, ok_bind, if_neg h.notMem_helpFlags, h.split,
    Slot.named_flag, okOr]

end Turn

end FpsMaxxing.CommandLine
