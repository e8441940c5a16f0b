import FpsMaxxing.Effects.Log
import FpsMaxxing.Gateway.Server
import FpsMaxxing.Ipc.Frame
import FpsMaxxing.Streams.Lines

/-! A session of the gateway from the bytes on its input to the bytes on its output. -/

namespace FpsMaxxing.Gateway

open Effects Serde Streams

structure Json where
  parse : String → Except String Value
  print : Value → Bytes

def utf8 (line : Bytes) : Option String := String.fromUTF8? ⟨line.toArray⟩

namespace Json

variable (json : Json)

/-- An item of `input.lines()`, parsed. What `lines` drops is ASCII, so that it does not matter to
whether the rest is UTF-8. -/
def line (bytes : Bytes) : Line :=
  match utf8 bytes with
  | none => .unreadable "stream did not contain valid UTF-8"
  | some text =>
    match json.parse text with
    | .error error => .malformed error
    | .ok request => .json request

def read (bytes : Bytes) : Option Value := do
  let text ← utf8 bytes
  (json.parse text).toOption

end Json

variable (texts : Texts) (plane : ControlPlane) (json : Json)

def serveBytes (input : Bytes) : Program Calls (Bytes × Except GatewayError Unit) :=
  (fun (responses, result) => (responses.flatMap fun response => json.print response ++ [newline],
    result)) <$> serve texts plane ((lines input).map json.line)

structure Turn where
  response : Option Value
  log : List Calls.Event

/-- A line that is not JSON is answered with a parse error, a request with an `id` under its `id`,
and nothing else is answered; only a request with an `id` makes calls. -/
def Turn.Answers (turn : Turn) (bytes : Bytes) : Prop :=
  match json.read bytes with
  | none => turn.log = [] ∧ ∃ response, turn.response = some response ∧
      response.get "id" = some .null ∧
      ∃ error, response.get "error" = some error ∧ error.get "code" = some (.number parseError)
  | some request =>
    match request.get "id" with
    | some id => ∃ response, turn.response = some response ∧ response.get "id" = some id
    | none => turn.log = [] ∧ turn.response = none

def Answered (input : Bytes) (log : List Calls.Event)
    (session : Bytes × Except GatewayError Unit) : Prop :=
  session.2 = .ok () ∧ ∃ turns, List.Forall₂ (Turn.Answers json) turns (lines input) ∧
    log = turns.flatMap Turn.log ∧
    readLines [] session.1 =
      (turns.filterMap Turn.response).map fun response => json.print response ++ [newline]

variable {σ : Type} (P : Provider σ) (w : World σ)

def Disciplined (input : Bytes) : Prop :=
  (∃ tr session v,
    Steps (sem P) (serveBytes texts plane json input) w tr (.done session) v) ∧
  ∀ tr session v, Steps (sem P) (serveBytes texts plane json input) w tr (.done session) v →
    Answered json input (tr.map Entry.event) session

variable {texts plane json P w}

lemma answer_id (id : Value) (result : Except Refusal Value) :
    (answer id result).get "id" = some id := by
  cases result <;> rfl

lemma dispatch_none {request : Value} (h : request.get "id" = none) :
    dispatch texts plane request = .done none := by
  rw [dispatch, h]
  rfl

lemma dispatch_logs {request id : Value} (h : request.get "id" = some id) :
    (dispatch texts plane request).Logs anyAnswer fun _ response =>
      ∃ r, response = some r ∧ r.get "id" = some id := by
  rw [dispatch, h]
  refine (Program.logs_map _ _).mpr ?_
  exact (Program.logs_true exists_answer _).mono fun _ result _ => ⟨_, rfl, answer_id id result⟩

variable (texts plane json) in
lemma serve_cons {bytes : Bytes} {text : String} (h : utf8 bytes = some text) (rest : List Line) :
    ∃ turn : Program Calls (Option Value),
      serve texts plane (json.line bytes :: rest) = (do
        let response ← turn
        let (responses, result) ← serve texts plane rest
        return (response.toList ++ responses, result)) ∧
      turn.Logs anyAnswer fun log response => (⟨response, log⟩ : Turn).Answers json bytes := by
  cases hp : json.parse text with
  | error error =>
    have hr : json.read bytes = none := by simp [Json.read, h, hp, Except.toOption]
    refine ⟨.done (some (answer .null (.error (parseError, "parse error: " ++ error)))), ?_, ?_⟩
    · simp [Json.line, h, hp, serve]
    · simp only [Turn.Answers, hr]
      exact ⟨rfl, _, rfl, rfl, _, rfl, rfl⟩
  | ok request =>
    have hr : json.read bytes = some request := by simp [Json.read, h, hp, Except.toOption]
    refine ⟨dispatch texts plane request, by simp [Json.line, h, hp, serve], ?_⟩
    cases hid : request.get "id" with
    | none =>
      rw [dispatch_none hid]
      simp [Program.Logs, Turn.Answers, hr, hid]
    | some id => simpa [Turn.Answers, hr, hid] using dispatch_logs hid

lemma serve_logs {rows : List Bytes} (h : ∀ row ∈ rows, (utf8 row).isSome = true) :
    (serve texts plane (rows.map json.line)).Logs anyAnswer fun log session =>
      session.2 = .ok () ∧ ∃ turns, List.Forall₂ (Turn.Answers json) turns rows ∧
        log = turns.flatMap Turn.log ∧ session.1 = turns.filterMap Turn.response := by
  induction rows with
  | nil => exact ⟨rfl, [], .nil, rfl, rfl⟩
  | cons row rows ih =>
    obtain ⟨hrow, hrows⟩ := List.forall_mem_cons.mp h
    obtain ⟨text, ht⟩ := Option.isSome_iff_exists.mp hrow
    obtain ⟨turn, hs, hturn⟩ := serve_cons texts plane json ht (rows.map json.line)
    rw [List.map_cons, hs, Program.logs_bind]
    refine hturn.mono fun log response hr => ?_
    refine (Program.logs_bind _ _).mpr ((ih hrows).mono ?_)
    rintro log' ⟨responses, result⟩ ⟨rfl, turns, ht, rfl, rfl⟩
    refine ⟨rfl, ⟨response, log⟩ :: turns, .cons hr ht, by simp, ?_⟩
    cases response <;> rfl

lemma serve_unreadable {rows : List Bytes} (h : ∃ row ∈ rows, utf8 row = none) :
    (serve texts plane (rows.map json.line)).Logs anyAnswer fun _ session =>
      session.2 ≠ .ok () := by
  induction rows with
  | nil => simp at h
  | cons row rows ih =>
    cases hrow : utf8 row with
    | none =>
      rw [List.map_cons, Json.line, hrow]
      exact nofun
    | some text =>
      have hrows : ∃ row ∈ rows, utf8 row = none := by simpa [hrow] using h
      obtain ⟨turn, hs, hturn⟩ := serve_cons texts plane json hrow (rows.map json.line)
      rw [List.map_cons, hs, Program.logs_bind]
      refine hturn.mono fun log response _ => ?_
      exact (Program.logs_bind _ _).mpr ((ih hrows).mono fun _ _ hr => hr)

lemma serveBytes_logs {lang : List Calls.Event → List Value × Except GatewayError Unit → Prop}
    {input : Bytes} (h : (serve texts plane ((lines input).map json.line)).Logs anyAnswer lang)
    {v : World σ} {tr : List (Entry Calls (World σ))} {session : Bytes × Except GatewayError Unit}
    (hs : Steps (sem P) (serveBytes texts plane json input) w tr (.done session) v) :
    ∃ responses result, lang (tr.map Entry.event) (responses, result) ∧ session =
      (responses.flatMap fun response => json.print response ++ [newline], result) := by
  obtain ⟨q, hq, hs⟩ := hs.of_map
  cases q with
  | call o next => cases hq
  | done served =>
    obtain ⟨log, a, hl, _, he⟩ := h.steps (hs.only fun _ _ => trivial)
    obtain ⟨hlog, rfl⟩ := he _ rfl
    exact ⟨served.1, served.2, hlog ▸ hl, by simpa using hq⟩

lemma not_disciplined {input : Bytes} (h : ∃ line ∈ lines input, utf8 line = none) :
    ¬ Disciplined texts plane json P w input := by
  intro hd
  obtain ⟨⟨tr, session, v, hs⟩, ha⟩ := hd
  obtain ⟨hok, _⟩ := ha tr session v hs
  obtain ⟨responses, result, hr, rfl⟩ := serveBytes_logs (serve_unreadable h) hs
  exact hr hok

/-- The gateway keeps its session discipline exactly on the inputs all of whose lines are UTF-8. -/
theorem session_discipline (texts : Texts) (plane : ControlPlane) (json : Json)
    (hprint : ∀ v, newline ∉ json.print v) (P : Provider σ) (w : World σ) (input : Bytes) :
    Disciplined texts plane json P w input ↔ ∀ line ∈ lines input, (utf8 line).isSome = true := by
  constructor
  · intro hd line hl
    by_contra hn
    exact not_disciplined ⟨line, hl, by simpa using hn⟩ hd
  · intro h
    have he := Program.ensures_true (sem_answers P) (serveBytes texts plane json input) w
    obtain ⟨tr, session, v, hs, _⟩ := he.returns
    refine ⟨⟨tr, session, v, hs⟩, fun tr session v hs => ?_⟩
    obtain ⟨responses, result, ⟨hok, turns, ht, hl, rfl⟩, rfl⟩ := serveBytes_logs (serve_logs h) hs
    refine ⟨hok, turns, ht, hl, ?_⟩
    have hw := readLines_flatMap ((turns.filterMap Turn.response).map json.print)
      (List.forall_mem_map.mpr fun v _ => hprint v)
    simpa [List.flatMap_map, Function.comp_def] using hw

def sampleJson : Json where
  parse text :=
    if text = "\x7b\x7d" then .ok (.object []) else .error "expected value at line 1 column 1"
  print _ := ("\x7b\"error\":\x7b\"code\":-32700,\"message\":\"parse error: expected value at line 1 " ++
    "column 1\"\x7d,\"id\":null,\"jsonrpc\":\"2.0\"\x7d").toUTF8.toList

theorem session_discipline_sample : Disciplined ⟨fun _ => "", fun _ => ""⟩
    (mockProvider "linux").provider.plane sampleJson (mockProvider "linux").provider
    ⟨⟨true, [], []⟩, 0⟩ [120, 10, 123, 125, 10] :=
  (session_discipline _ _ sampleJson
    (fun _ => (by decide +kernel : newline ∉ sampleJson.print .null)) _ _ _).mpr (by decide +kernel)

theorem session_cut : ¬ Disciplined ⟨fun _ => "", fun _ => ""⟩
    (mockProvider "linux").provider.plane sampleJson (mockProvider "linux").provider
    ⟨⟨true, [], []⟩, 0⟩ [255, 10, 120, 10] :=
  not_disciplined ⟨[255], by decide, by decide +kernel⟩

end FpsMaxxing.Gateway
