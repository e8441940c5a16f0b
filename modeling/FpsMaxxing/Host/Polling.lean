import FpsMaxxing.Host.PassEffect

/-! The watchdog as a process: its arguments, the single pass and the loop that polls. -/

namespace FpsMaxxing

open Effects Serde

variable {σ : Type}

def parseU64 (value : String) : Option UInt64 :=
  let digits := match value.toList with
    | '+' :: digits => digits
    | digits => digits
  if digits.isEmpty || !digits.all Char.isDigit then none
  else
    let n := digits.foldl (fun n digit => 10 * n + (digit.toNat - '0'.toNat)) 0
    if n < 2 ^ 64 then some (.ofNat n) else none

structure Watchdog.Config where
  journalPath : String
  interval : UInt64
  once : Bool
  recoverAll : Bool
  deriving DecidableEq

namespace Watchdog.Config

def defaultJournal : String := "fpsmaxxing-journal.sqlite"
def defaultIntervalSeconds : UInt64 := 5

def read (journalPath : Option String) (config : Config) : List String → Option String × Config
  | [] => (journalPath, config)
  | ["--journal"] => (none, config)
  | "--journal" :: path :: args => config.read (some path) args
  | ["--interval"] => (journalPath, config)
  | "--interval" :: value :: args =>
    match parseU64 value with
    | some seconds => { config with interval := max seconds 1 }.read journalPath args
    | none => config.read journalPath args
  | "--once" :: args => { config with once := true }.read journalPath args
  | "--recover-all" :: args => { config with recoverAll := true }.read journalPath args
  | _ :: args => config.read journalPath args

/-- `environment` is `FPSMAXXING_JOURNAL_PATH`. -/
def fromArgs (environment : Option String) (args : List String) : Config :=
  let (journalPath, config) := read none ⟨"", defaultIntervalSeconds, false, false⟩ args
  { config with
    journalPath := (journalPath <|> environment).getD defaultJournal
    once := config.once || config.recoverAll }

def policy (config : Config) : ReclaimPolicy :=
  if config.recoverAll then .allUnclosed else .expiredLeasesOnly

def flags : List String → List String
  | [] => []
  | "--journal" :: _ :: args => "--journal" :: flags args
  | "--interval" :: _ :: args => "--interval" :: flags args
  | arg :: args => arg :: flags args

end Watchdog.Config

inductive Printed
  | out (line : String)
  | err (line : String)
  -- the error, and that the pass is tried again
  | retrying (error : WatchdogError)

inductive WatchdogOp
  | opens (journalPath : String)
  | call (o : Op)
  | print (printed : Printed)
  | sleep (seconds : UInt64)

abbrev WatchdogOp.Res : WatchdogOp → Type
  | opens _ => Except SqlError Unit
  | call o => o.Res
  | print _ | sleep _ => Unit

abbrev WatchdogCalls : Signature := ⟨WatchdogOp, WatchdogOp.Res⟩

namespace Watchdog

def reasonLabel : ReclaimReason → String
  | .leaseExpired => "lease expired"
  | .crashRecovery => "crash recovery"

def policyLabel : ReclaimPolicy → String
  | .allUnclosed => "recovering all unclosed experiments"
  | .expiredLeasesOnly => "reclaiming expired leases"

def report (restoration : Restoration) : Printed :=
  if restoration.restored then
    .out ("fpsmaxxing-watchdog: restored experiment " ++ toString restoration.experimentId ++ " (" ++
      reasonLabel restoration.reason ++ ", lease " ++ toString restoration.leaseSeconds ++ "s)")
  else
    .err ("fpsmaxxing-watchdog: could not restore experiment " ++
      toString restoration.experimentId ++ " (" ++ reasonLabel restoration.reason ++ "): " ++
      restoration.error.getD "unknown error")

def banner (config : Config) : Printed :=
  .out ("fpsmaxxing-watchdog: polling " ++ config.journalPath ++ " every " ++
    toString config.interval ++ "s (" ++ policyLabel config.policy ++ ")")

def opens (journalPath : String) : Program WatchdogCalls (Except SqlError Unit) :=
  @Program.perform WatchdogCalls (.opens journalPath)

def carried (o : Op) : Program WatchdogCalls o.Res := @Program.perform WatchdogCalls (.call o)

def print (printed : Printed) : Program WatchdogCalls Unit :=
  @Program.perform WatchdogCalls (.print printed)

def sleep (seconds : UInt64) : Program WatchdogCalls Unit :=
  @Program.perform WatchdogCalls (.sleep seconds)

def reportAll : List Restoration → Program WatchdogCalls Unit
  | [] => return ()
  | restoration :: restorations => do
    print (report restoration)
    reportAll restorations

variable (watchdog : Watchdog) (config : Config)

def tick (policy : ReclaimPolicy) : Program WatchdogCalls (Except WatchdogError Unit) := do
  match ← (watchdog.reclaim policy).run.interpret carried with
  | .error error => return .error error
  | .ok restorations =>
    reportAll restorations
    return .ok ()

/-- The first `passes` rounds of the loop, which has no end. -/
def poll : ℕ → Program WatchdogCalls Unit
  | 0 => return ()
  | passes + 1 => do
    match ← watchdog.tick config.policy with
    | .error error => print (.retrying error)
    | .ok () => pure ()
    sleep config.interval
    poll passes

def main (passes : ℕ) : Program WatchdogCalls (Option (Except WatchdogError Unit)) := do
  match ← opens config.journalPath with
  | .error error => return some (.error (.journal error))
  | .ok () =>
    if config.once then
      let result ← watchdog.tick config.policy
      return some result
    else
      print (banner config)
      watchdog.poll config passes
      return none

end Watchdog

namespace Watchdog.Config

variable {journalPath environment : Option String} {config : Config} {args : List String}

lemma flags_cons {arg : String} (hj : arg ≠ "--journal") (hi : arg ≠ "--interval") :
    flags (arg :: args) = arg :: flags args := by
  rw [flags]
  · exact fun _ _ h _ => hj h
  · exact fun _ _ h _ => hi h

lemma one_le_max (seconds : UInt64) : 1 ≤ max seconds 1 := by
  rw [show max seconds 1 = if seconds ≤ 1 then 1 else seconds from rfl]
  split_ifs with h
  · exact UInt64.le_refl 1
  · exact (UInt64.le_total 1 seconds).resolve_right h

lemma read_spec (hi : 1 ≤ config.interval) :
    1 ≤ (config.read journalPath args).2.interval ∧
      ((config.read journalPath args).2.once = true ↔
        config.once = true ∨ "--once" ∈ flags args) ∧
      ((config.read journalPath args).2.recoverAll = true ↔
        config.recoverAll = true ∨ "--recover-all" ∈ flags args) := by
  induction journalPath, config, args using read.induct with
  | case1 journalPath config => simp [read, flags, hi]
  | case2 journalPath config => simp [read, flags, hi]
  | case3 journalPath config path args ih =>
    rw [read, flags]
    simpa using ih hi
  | case4 journalPath config => simp [read, flags, hi]
  | case5 journalPath config value args seconds hs ih =>
    rw [read, flags, hs]
    simpa using ih (one_le_max seconds)
  | case6 journalPath config value args hs ih =>
    rw [read, flags, hs]
    simpa using ih hi
  | case7 journalPath config args ih =>
    obtain ⟨h, hone, hall⟩ := ih hi
    rw [read, flags_cons (by decide) (by decide)]
    refine ⟨h, ?_, ?_⟩
    · simp [hone]
    · simpa using hall
  | case8 journalPath config args ih =>
    obtain ⟨h, hone, hall⟩ := ih hi
    rw [read, flags_cons (by decide) (by decide)]
    refine ⟨h, ?_, ?_⟩
    · simpa using hone
    · simp [hall]
  | case9 journalPath config arg args h1 h2 h3 h4 h5 h6 ih =>
    have hj : arg ≠ "--journal" := by
      intro h
      cases args with
      | nil => exact h1 h rfl
      | cons path args => exact h2 path args h rfl
    have hv : arg ≠ "--interval" := by
      intro h
      cases args with
      | nil => exact h3 h rfl
      | cons value args => exact h4 value args h rfl
    have hread : config.read journalPath (arg :: args) = config.read journalPath args := by
      rw [read]
      all_goals assumption
    obtain ⟨h, hone, hall⟩ := ih hi
    rw [hread, flags_cons hj hv, List.mem_cons, List.mem_cons, or_iff_right (Ne.symm h5),
      or_iff_right (Ne.symm h6)]
    exact ⟨h, hone, hall⟩

end Watchdog.Config

namespace Watchdog

lemma age_of_leaseExpired {ageSeconds : Option ℤ} {leaseSeconds : UInt64}
    (h : leaseExpired ageSeconds leaseSeconds = true) :
    ∃ age, ageSeconds = some age ∧ 0 ≤ age ∧ leaseSeconds.toNat ≤ age := by
  cases ageSeconds with
  | none => cases h
  | some age => exact ⟨age, rfl, of_decide_eq_true h⟩

lemma decode_leaseExpired {row : Database.Candidate} {experiment : UnclosedExperiment}
    (h : decode row = .ok experiment) :
    experiment.leaseExpired = leaseExpired row.2.2.2 experiment.request.leaseSeconds := by
  obtain ⟨e, snapshotPayload, intentPayload, age⟩ := row
  rw [decode] at h
  split at h
  · cases h
    rfl
  · cases h

def Listed (policy : ReclaimPolicy) (listed : List Database.Candidate) (snapshot : StateSnapshot) :
    Prop :=
  ∃ row ∈ listed, ∃ experiment, decode row = .ok experiment ∧ experiment.snapshot = snapshot ∧
    experiment.selectedBy policy = true

structure Pace where
  opened : Bool
  -- since the last sleep
  asked : Bool
  listed : List Database.Candidate
  sleeps : ℕ

namespace Pace

def start : Pace := ⟨false, false, [], 0⟩

def next (m : Pace) : (o : WatchdogOp) → o.Res → Pace
  | .opens _, .ok _ => { m with opened := true }
  | .call (.journal (.unclosed _)), .ok rows => { m with asked := true, listed := rows }
  | .call (.journal (.unclosed _)), .error _ => { m with asked := true }
  | .sleep _, _ => { m with asked := false, listed := [], sleeps := m.sleeps + 1 }
  | _, _ => m

def allows (config : Config) (m : Pace) : WatchdogOp → Prop
  | .opens journalPath => journalPath = config.journalPath
  | .call (.journal (.unclosed _)) => m.opened = true ∧ m.asked = false
  | .call (.provider (.rollback snapshot)) =>
    m.opened = true ∧ Listed config.policy m.listed snapshot
  | .sleep seconds => m.opened = true ∧ config.once = false ∧ seconds = config.interval
  | _ => m.opened = true

def Keeps (m n : Pace) : Prop := n.opened = true ∧ n.sleeps = m.sleeps

def run {W : Type} (tr : List (Entry WatchdogCalls W)) : Pace :=
  tr.foldl (fun m e => m.next e.op e.res) .start

end Pace

def pace (config : Config) : Monitor WatchdogCalls Pace := ⟨Pace.next, Pace.allows config⟩

variable {P : Provider σ} {config : Config} {m : Progress} {n : Pace}

lemma pace_call {o : Op} (h : ∀ providerId, o ≠ .journal (.unclosed providerId)) (r : o.Res) :
    n.next (.call o) r = n := by
  match o, r with
  | .journal (.unclosed providerId), _ => exact absurd rfl (h providerId)
  | .provider _, _ | .journal .createTables, _ | .journal (.beginExperiment _ _), _
  | .journal (.insert _), _ | .journal .ready, _ | .journal (.lastRestore _), _
  | .journal (.recordTrial _), _ | .journal (.readTrial _), _ => rfl

lemma listed_of_pending {policy : ReclaimPolicy} {experiment : UnclosedExperiment}
    (h : experiment ∈ m.pending policy) : Listed policy m.listed experiment.snapshot := by
  have hm : experiment ∈ m.selected policy := List.mem_of_mem_drop h
  obtain ⟨row, hrow, hd, _⟩ := Progress.decoded hm
  refine ⟨row, hrow, experiment, hd, rfl, ?_⟩
  rw [Progress.selected] at hm
  split at hm
  · exact (List.mem_filter.mp hm).2
  · cases hm

lemma reclaimAll_paced {experiments : List UnclosedExperiment} (ho : n.opened = true)
    (hp : m.pending config.policy = experiments) (hl : n.listed = m.listed) :
    ((P.watchdog.reclaimAll experiments).run.interpret carried).Obeys (pace config) n
      fun _ n' => n' = n := by
  cases experiments with
  | nil => rfl
  | cons experiment rest =>
    have hne : m.listed ≠ [] := by
      obtain ⟨row, hrow, _⟩ :=
        listed_of_pending (m := m) (hp ▸ List.mem_cons_self : experiment ∈ _)
      exact List.ne_nil_of_mem hrow
    apply (Pass.reclaimAll_obeys hp).interpret
      (R := fun m' n' => m'.listed = m.listed ∧ n' = n) ⟨rfl, rfl⟩
    · rintro m' _ o ⟨hl', rfl⟩ ha
      have hquery : ∀ providerId, o ≠ .journal (.unclosed providerId) := by
        rintro providerId rfl
        exact hne (hl'.symm.trans ha.2.1)
      refine ⟨?_, fun r => ⟨?_, pace_call hquery r⟩⟩
      · match o, ha with
        | .provider (.rollback snapshot), ⟨experiment, rest, hp, hs⟩ =>
          have hlisted := listed_of_pending (m := m') (hp ▸ List.mem_cons_self)
          rw [hl', ← hl, hs] at hlisted
          exact ⟨ho, hlisted⟩
        | .journal (.unclosed providerId), _ => exact absurd rfl (hquery providerId)
        | .provider .snapshot, _ | .journal .ready, _ | .journal (.lastRestore _), _
        | .journal (.insert _), _ => exact ho
      · obtain h | ⟨providerId, rows, he, _⟩ := m'.next_listed o r
        · exact h.trans hl'
        · cases he
          exact absurd rfl (hquery providerId)
    · rintro _ _ _ ⟨_, rfl⟩ _
      rfl

lemma scan_paced (ho : n.opened = true) (hn : n.asked = false) :
    (P.watchdog.scan.run.interpret carried).Obeys (pace config) n fun r n' =>
      n.Keeps n' ∧ ∀ candidates, r = .ok candidates → candidates = [] ∨
        n'.listed.mapM decode = .ok candidates := by
  refine ⟨ho, ?_⟩
  show ∀ r : Except SqlError Bool, _
  rintro (e | ready)
  · exact ⟨⟨ho, rfl⟩, nofun⟩
  cases ready with
  | false =>
    refine ⟨⟨ho, rfl⟩, ?_⟩
    rintro _ ⟨⟩
    exact .inl rfl
  | true =>
    refine ⟨⟨ho, hn⟩, ?_⟩
    show ∀ r : Except SqlError (List Database.Candidate), _
    rintro (e | rows)
    · exact ⟨⟨ho, rfl⟩, nofun⟩
    · exact ⟨⟨ho, rfl⟩, fun _ h => .inr h⟩

lemma reclaim_paced (ho : n.opened = true) (hn : n.asked = false) :
    ((P.watchdog.reclaim config.policy).run.interpret carried).Obeys (pace config) n
      fun _ n' => n.Keeps n' := by
  rw [reclaim, ExceptT.run_bind, Program.interpret_bind, Program.obeys_bind]
  refine (scan_paced ho hn).mono ?_
  rintro (e | candidates) n' ⟨hs, hc⟩
  · exact hs
  obtain rfl | hd := hc candidates rfl
  · exact hs
  · have hp : ({ Progress.start with listed := n'.listed } : Progress).pending config.policy =
        candidates.filter (UnclosedExperiment.selectedBy config.policy) := by
      simp [Progress.pending, Progress.selected, hd, Progress.start]
    refine (reclaimAll_paced hs.1 hp rfl).mono ?_
    rintro _ _ rfl
    exact hs

lemma reportAll_paced (ho : n.opened = true) (restorations : List Restoration) :
    (reportAll restorations).Obeys (pace config) n fun _ n' => n' = n := by
  induction restorations with
  | nil => rfl
  | cons restoration restorations ih => exact ⟨ho, fun _ => ih⟩

lemma tick_paced (ho : n.opened = true) (hn : n.asked = false) :
    (P.watchdog.tick config.policy).Obeys (pace config) n fun _ n' => n.Keeps n' := by
  rw [tick, Program.obeys_bind]
  refine (reclaim_paced ho hn).mono ?_
  rintro (e | restorations) n' hs
  · exact hs
  · rw [Program.obeys_bind]
    refine (reportAll_paced hs.1 restorations).mono ?_
    rintro _ _ rfl
    exact hs

lemma poll_paced (honce : config.once = false) (ho : n.opened = true) (hn : n.asked = false)
    (passes : ℕ) : (P.watchdog.poll config passes).Obeys (pace config) n
      fun _ n' => n'.opened = true ∧ n'.sleeps = n.sleeps + passes := by
  induction passes generalizing n with
  | zero => exact ⟨ho, rfl⟩
  | succ passes ih =>
    have hrest : ∀ n' : Pace, n.Keeps n' →
        (do sleep config.interval; P.watchdog.poll config passes : Program _ _).Obeys (pace config)
          n' fun _ n'' => n''.opened = true ∧ n''.sleeps = n.sleeps + (passes + 1) := by
      rintro n' ⟨ho', hs⟩
      have hnext := ih (n := n'.next (.sleep config.interval) ()) ho' rfl
      refine ⟨⟨ho', honce, rfl⟩, fun _ => hnext.mono fun _ n'' ⟨ho'', h⟩ => ⟨ho'', ?_⟩⟩
      have hone : n''.sleeps = n'.sleeps + 1 + passes := h
      omega
    rw [poll, Program.obeys_bind]
    refine (tick_paced ho hn).mono ?_
    rintro (e | u) n' hs
    · exact ⟨hs.1, fun _ => hrest n' hs⟩
    · exact hrest n' hs

/-- What the process ends with, where it has gone through `passes` rounds if it polls. -/
def Ends (config : Config) (passes : ℕ) (n : Pace) (result : Option (Except WatchdogError Unit)) :
    Prop :=
  if n.opened = false then ∃ error, result = some (.error (.journal error))
  else if config.once = true then result.isSome = true
  else result = none ∧ n.sleeps = passes

lemma main_paced (P : Provider σ) (config : Config) (passes : ℕ) :
    (P.watchdog.main config passes).Obeys (pace config) .start fun result n =>
      Ends config passes n result := by
  have hopen : ∀ n : Pace, n.opened = true → ¬ n.opened = false := fun n ho hno =>
    Bool.noConfusion (ho.symm.trans hno)
  rw [main]
  refine ⟨rfl, ?_⟩
  show ∀ r : Except SqlError Unit, _
  rintro (error | _)
  · exact ⟨error, rfl⟩
  have ho : (Pace.start.next (.opens config.journalPath) (.ok ())).opened = true := rfl
  show Program.Obeys (pace config) (ite _ _ _)
    (Pace.start.next (.opens config.journalPath) (.ok ())) _
  split_ifs with honce
  · rw [Program.obeys_bind]
    refine (tick_paced ho rfl).mono fun _ n hs => ?_
    show Ends ..
    rw [Ends, if_neg (hopen n hs.1), if_pos honce]
    rfl
  · have hp := poll_paced (P := P) (Bool.eq_false_iff.mpr honce) ho rfl passes
    refine ⟨ho, fun _ => ?_⟩
    show (P.watchdog.poll config passes >>= fun _ => pure none).Obeys ..
    rw [Program.obeys_bind]
    refine hp.mono fun _ n ⟨ho', hs⟩ => ?_
    show Ends ..
    rw [Ends, if_neg (hopen n ho'), if_neg honce]
    exact ⟨rfl, hs.trans (Nat.zero_add _)⟩

section

variable {W : Type} {tr : List (Entry WatchdogCalls W)}

lemma Pace.asked_next {o : WatchdogOp} {r : o.Res} (hs : ∀ seconds, o ≠ .sleep seconds)
    (hn : n.asked = true) : (n.next o r).asked = true := by
  match o, r with
  | .sleep seconds, _ => exact absurd rfl (hs seconds)
  | .opens _, .ok _ | .opens _, .error _ => exact hn
  | .call (.journal (.unclosed _)), .ok _ | .call (.journal (.unclosed _)), .error _ => rfl
  | .print _, _ | .call (.provider _), _ | .call (.journal .createTables), _
  | .call (.journal (.beginExperiment _ _)), _ | .call (.journal (.insert _)), _
  | .call (.journal .ready), _ | .call (.journal (.lastRestore _)), _
  | .call (.journal (.recordTrial _)), _ | .call (.journal (.readTrial _)), _ => exact hn

lemma Pace.asked_query {providerId : String}
    (r : WatchdogOp.Res (.call (.journal (.unclosed providerId)))) :
    (n.next (.call (.journal (.unclosed providerId))) r).asked = true := by
  cases r <;> rfl

lemma Pace.opened_of_allows {o : WatchdogOp} (h : n.allows config o) :
    n.opened = true ∨ o = .opens config.journalPath := by
  match o, h with
  | .opens _, h => exact .inr (congrArg WatchdogOp.opens h)
  | .call (.journal (.unclosed _)), h | .call (.provider (.rollback _)), h | .sleep _, h =>
    exact .inl h.1
  | .print _, h | .call (.journal .createTables), h | .call (.journal (.beginExperiment _ _)), h
  | .call (.journal (.insert _)), h | .call (.journal .ready), h
  | .call (.journal (.lastRestore _)), h | .call (.journal (.recordTrial _)), h
  | .call (.journal (.readTrial _)), h | .call (.provider .snapshot), h
  | .call (.provider (.preview _)), h | .call (.provider (.apply _)), h
  | .call (.provider (.verify _)), h => exact .inl h

lemma asked_run (config : Config) (hs : ∀ e ∈ tr, ∀ seconds, e.op ≠ .sleep seconds)
    (hn : n.asked = true) : ((pace config).run n tr).asked = true := by
  induction tr generalizing n with
  | nil => exact hn
  | cons e tr ih =>
    exact ih (fun e he => hs e (List.mem_cons_of_mem _ he))
      (Pace.asked_next (hs e List.mem_cons_self) hn)

end

end Watchdog

open Watchdog

section

variable {environment : Option String} {args : List String} {passes : ℕ} {P : Provider σ} {W : Type}
  {semantics : Semantics WatchdogCalls W} {w v : W} {tr : List (Entry WatchdogCalls W)}
  {q : Program WatchdogCalls (Option (Except WatchdogError Unit))}

/-- Nothing is done before the journal is open, every sleep is of the interval, which is a second at
least, and no pass follows another one without a sleep. -/
structure Watchdog.Paced (config : Config) (tr : List (Entry WatchdogCalls W)) : Prop where
  opens : ∀ pre e post, tr = pre ++ e :: post →
    (Pace.run pre).opened = true ∨ e.op = .opens config.journalPath
  interval : ∀ e ∈ tr, ∀ seconds, e.op = .sleep seconds →
    config.once = false ∧ seconds = config.interval ∧ 1 ≤ seconds
  between : ∀ pre e mid e' post first second, tr = pre ++ e :: mid ++ e' :: post →
    e.op = .call (.journal (.unclosed first)) → e'.op = .call (.journal (.unclosed second)) →
      ∃ s ∈ mid, s.op = .sleep config.interval

lemma Watchdog.sleeps_of_main {config : Config} {seconds : UInt64}
    (h : Steps semantics (P.watchdog.main config passes) w tr q v) {e : Entry WatchdogCalls W}
    (he : e ∈ tr) (hs : e.op = .sleep seconds) :
    config.once = false ∧ seconds = config.interval := by
  obtain ⟨tr', next, h'⟩ := h.of_mem he
  have ha := (h'.obeys (main_paced P config passes)).1
  rw [hs] at ha
  exact ha.2

lemma Watchdog.paced_of_main {config : Config} (hi : 1 ≤ config.interval)
    (h : Steps semantics (P.watchdog.main config passes) w tr q v) : Paced config tr where
  opens pre e post htr := by
    subst htr
    obtain ⟨next, h'⟩ := h.of_append
    exact Pace.opened_of_allows (h'.obeys (main_paced P config passes)).1
  interval e he seconds hs := by
    obtain ⟨honce, rfl⟩ := sleeps_of_main h he hs
    exact ⟨honce, rfl, hi⟩
  between pre e mid e' post first second htr he he' := by
    subst htr
    obtain ⟨next, h'⟩ := h.of_append
    have ha := (h'.obeys (main_paced P config passes)).1
    rw [he'] at ha
    have ha : ((pace config).run .start (pre ++ e :: mid)).asked = false := ha.2
    by_contra hno
    have hsleep : ∀ s ∈ mid, ∀ seconds, s.op ≠ .sleep seconds := by
      intro s hs seconds hsec
      have hmem : s ∈ pre ++ e :: mid ++ e' :: post := by simp [hs]
      obtain ⟨_, rfl⟩ := sleeps_of_main h hmem hsec
      exact hno ⟨s, hs, hsec⟩
    have hasked : ((pace config).run .start (pre ++ [e])).asked = true := by
      obtain ⟨before, op, res⟩ := e
      subst he
      rw [Monitor.run_append]
      exact Pace.asked_query res
    have hn := asked_run config hsleep hasked
    rw [← Monitor.run_append, List.append_assoc] at hn
    exact Bool.noConfusion (ha.symm.trans hn)

end

/-- The process on one host: that it opens the journal, prints and sleeps is not seen there. -/
def Watchdog.process (P : Provider σ) : Semantics WatchdogCalls (World σ)
  | w, .call o, r, w' => sem P w o r w'
  | w, .opens _, _, w' | w, .print _, _, w' | w, .sleep _, _, w' => w' = w

def Device.process (d : Device σ) (w : World σ) : (o : WatchdogOp) → o.Res × World σ
  | .opens _ => (.ok (), w)
  | .call o => d.answer w o
  | .print _ | .sleep _ => ((), w)

lemma Device.process_sem (d : Device σ) (w : World σ) (o : WatchdogOp) :
    Watchdog.process d.provider w o (d.process w o).1 (d.process w o).2 := by
  cases o with
  | call o => exact d.answer_sem w o
  | opens | print | sleep => rfl

def overdue : World UInt64 where
  db :=
    { ready := true
      rows := [⟨⟨1, .snapshot, "mock", toValue (⟨"mock", .object [("value", toValue (7 : UInt64))]⟩ :
          StateSnapshot)⟩, -40000⟩,
        ⟨⟨1, .applyIntent, "mock", toValue (mockRequest 42)⟩, -40000⟩]
      trials := [] }
  host := 42

end FpsMaxxing
