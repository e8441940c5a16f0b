import FpsMaxxing.Broker.Arguments

/-! The grammar of a command line: settings, each of a flag at most once, up to the end or to an
argument that asks for help. -/

namespace FpsMaxxing.CommandLine

open Effects

def FlagLike (value : String) : Prop := "--".toList <+: value.toList ∨ value = "-h"

structure Setting where
  slot : Slot
  value : String
  inline : Bool

namespace Setting

def written (s : Setting) : List OsString :=
  if s.inline then [.utf8 (s.slot.flag ++ "=" ++ s.value)] else [.utf8 s.slot.flag, .utf8 s.value]

structure Legal (s : Setting) : Prop where
  nonempty : s.value ≠ ""
  separate : s.inline = false → ¬ FlagLike s.value

end Setting

structure Settles (settings : List Setting) (options : Options) (arguments : List OsString) :
    Prop where
  legal : ∀ s ∈ settings, s.Legal
  once : (settings.map Setting.slot).Nodup
  written : arguments = settings.flatMap Setting.written
  holds : ∀ slot value,
    slot.of options = some value ↔ ∃ s ∈ settings, s.slot = slot ∧ s.value = value

inductive Offends (options : Options) : List OsString → ArgError → Prop
  | notUnicode {lossy : String} {rest : List OsString} :
    Offends options (.other lossy :: rest) (.notUnicode lossy)
  | unrecognized {text : String} {rest : List OsString} (notHelp : text ∉ helpFlags)
    (unnamed : ∀ slot, ¬ Names slot text) :
    Offends options (.utf8 text :: rest) (.unrecognized text)
  | repeated {slot : Slot} {text : String} {rest : List OsString} (names : Names slot text)
    (given : slot.of options ≠ none) :
    Offends options (.utf8 text :: rest) (.repeated slot.flag)
  | emptyInline {slot : Slot} {rest : List OsString} (free : slot.of options = none) :
    Offends options (.utf8 (slot.flag ++ "=") :: rest) (.missingValue slot.flag)
  | noValue {slot : Slot} (free : slot.of options = none) :
    Offends options [.utf8 slot.flag] (.missingValue slot.flag)
  | badValue {slot : Slot} {value : String} {rest : List OsString} (free : slot.of options = none)
    (bad : value = "" ∨ FlagLike value) :
    Offends options (.utf8 slot.flag :: .utf8 value :: rest) (.missingValue slot.flag)
  | valueNotUnicode {slot : Slot} {lossy : String} {rest : List OsString}
    (free : slot.of options = none) :
    Offends options (.utf8 slot.flag :: .other lossy :: rest) (.notUnicode lossy)

section Grammar

variable {options : Options}

lemma looksLikeFlag_iff {value : String} : looksLikeFlag value = true ↔ FlagLike value := by
  rw [looksLikeFlag, Bool.or_eq_true, List.isPrefixOf_iff_prefix, FlagLike]
  constructor
  · rintro (h | h)
    · exact .inl h
    · rcases List.mem_pair.mp (List.contains_iff_mem.mp h) with rfl | rfl
      · exact .inl (by decide)
      · exact .inr rfl
  · rintro (h | rfl)
    · exact .inl h
    · exact .inr (by decide)

lemma valueOf_next {flag value : String} {rest : List OsString} (h : ¬ FlagLike value) :
    valueOf flag none (.utf8 value :: rest) = .ok (value, rest) := by
  have hf : ¬ looksLikeFlag value = true := fun hf => h (looksLikeFlag_iff.mp hf)
  rw [valueOf, OsString.intoString, ok_bind, rejectIf_neg hf]
  rfl

lemma valueOf_flagLike {flag value : String} {rest : List OsString} (h : FlagLike value) :
    valueOf flag none (.utf8 value :: rest) = .error (.missingValue flag) := by
  rw [valueOf, OsString.intoString, ok_bind, rejectIf_pos (looksLikeFlag_iff.mpr h)]
  rfl

lemma Names.turn_free {slot : Slot} {text : String} {arguments : List OsString}
    (h : Names slot text) (hf : slot.of options = none) :
    CommandLine.turn options (.utf8 text) arguments = (do
      let (value, rest) ← valueOf slot.flag (CommandLine.split text).2 arguments
      rejectIf (value = "") (.missingValue slot.flag)
      return some (slot.set value options, rest)) := by
  rw [h.turn, rejectIf_neg (by simp [hf]), ok_bind]

lemma Names.turn_ok {slot : Slot} {text value : String} {arguments rest : List OsString}
    (h : Names slot text) (hf : slot.of options = none) (hv : value ≠ "")
    (ho : valueOf slot.flag (CommandLine.split text).2 arguments = .ok (value, rest)) :
    CommandLine.turn options (.utf8 text) arguments = .ok (some (slot.set value options, rest)) := by
  rw [h.turn_free hf, ho, ok_bind]
  dsimp only
  rw [rejectIf_neg hv, ok_bind]
  rfl

lemma Names.turn_empty {slot : Slot} {text : String} {arguments rest : List OsString}
    (h : Names slot text) (hf : slot.of options = none)
    (ho : valueOf slot.flag (CommandLine.split text).2 arguments = .ok ("", rest)) :
    CommandLine.turn options (.utf8 text) arguments = .error (.missingValue slot.flag) := by
  rw [h.turn_free hf, ho, ok_bind]
  rfl

lemma turn_written {s : Setting} {argument : OsString} {arguments rest : List OsString}
    (hs : s.Legal) (hf : s.slot.of options = none)
    (hw : argument :: arguments = s.written ++ rest) :
    turn options argument arguments = .ok (some (s.slot.set s.value options, rest)) := by
  obtain ⟨slot, value, inline⟩ := s
  cases inline with
  | true =>
    obtain ⟨rfl, rfl⟩ := List.cons.inj hw
    apply Names.turn_ok (.inr ⟨value, rfl⟩) hf hs.nonempty
    rw [split_inline]
    rfl
  | false =>
    obtain ⟨rfl, rfl⟩ := List.cons.inj hw
    apply Names.turn_ok (.inl rfl) hf hs.nonempty
    rw [split_flag]
    exact valueOf_next (hs.separate rfl)

lemma turn_offends {argument : OsString} {arguments : List OsString} {e : ArgError}
    (h : Offends options (argument :: arguments) e) :
    turn options argument arguments = .error e := by
  cases h with
  | notUnicode => rfl
  | unrecognized hh hn => exact turn_unnamed hh hn
  | repeated hn hg => rw [hn.turn, rejectIf_pos (Option.isSome_iff_ne_none.mpr hg), error_bind]
  | @emptyInline slot _ hf =>
    have he : slot.flag ++ "=" = slot.flag ++ "=" ++ "" := by simp
    rw [he]
    apply Names.turn_empty (.inr ⟨"", rfl⟩) hf
    rw [split_inline]
    rfl
  | noValue hf =>
    rw [Names.turn_free (.inl rfl) hf, split_flag]
    rfl
  | @badValue slot value rest hf hb =>
    by_cases hl : FlagLike value
    · rw [Names.turn_free (.inl rfl) hf, split_flag, valueOf_flagLike hl, error_bind]
    · obtain rfl := hb.resolve_right hl
      apply Names.turn_empty (.inl rfl) hf
      rw [split_flag]
      exact valueOf_next hl
  | valueNotUnicode hf =>
    rw [Names.turn_free (.inl rfl) hf, split_flag]
    rfl

lemma turn_cases (options : Options) (argument : OsString) (arguments : List OsString) :
    (∃ text ∈ helpFlags, argument = .utf8 text) ∨
    (∃ s : Setting, s.Legal ∧ s.slot.of options = none ∧
      ∃ rest, argument :: arguments = s.written ++ rest) ∨
    ∃ e, Offends options (argument :: arguments) e := by
  cases argument with
  | other lossy => exact .inr (.inr ⟨_, .notUnicode⟩)
  | utf8 text =>
    by_cases hh : text ∈ helpFlags
    · exact .inl ⟨text, hh, rfl⟩
    right
    by_cases hn : ∀ slot, ¬ Names slot text
    · exact .inr ⟨_, .unrecognized hh hn⟩
    obtain ⟨slot, hn⟩ := not_forall_not.mp hn
    by_cases hf : slot.of options = none
    swap
    · exact .inr ⟨_, .repeated hn hf⟩
    obtain rfl | ⟨value, rfl⟩ := hn
    · cases arguments with
      | nil => exact .inr ⟨_, .noValue hf⟩
      | cons next rest =>
        cases next with
        | other lossy => exact .inr ⟨_, .valueNotUnicode hf⟩
        | utf8 value =>
          by_cases hb : value = "" ∨ FlagLike value
          · exact .inr ⟨_, .badValue hf hb⟩
          · obtain ⟨hv, hl⟩ := not_or.mp hb
            exact .inl ⟨⟨slot, value, false⟩, ⟨hv, fun _ => hl⟩, hf, rest, rfl⟩
    · by_cases hv : value = ""
      · rw [hv, String.append_empty]
        exact .inr ⟨_, .emptyInline hf⟩
      · exact .inl ⟨⟨slot, value, true⟩, ⟨hv, nofun⟩, hf, arguments, rfl⟩

end Grammar

/-! A run of the loop. -/

section Run

variable {options options' : Options} {settings : List Setting}

lemma Slot.of_set (slot other : Slot) (value : String) (options : Options) :
    other.of (slot.set value options) = if slot = other then some value else other.of options := by
  cases slot <;> cases other <;> rfl

lemma Options.ext_of (h : ∀ (slot : Slot) value,
    slot.of options = some value ↔ slot.of options' = some value) : options = options' := by
  obtain ⟨socket, journal⟩ := options
  exact congrArg₂ Options.mk (Option.ext (h .socket)) (Option.ext (h .journal))

inductive Reads : Options → List Setting → Options → Prop
  | nil {options : Options} : Reads options [] options
  | cons {options options' : Options} {s : Setting} {settings : List Setting} (legal : s.Legal)
    (free : s.slot.of options = none)
    (reads : Reads (s.slot.set s.value options) settings options') :
    Reads options (s :: settings) options'

lemma Setting.exists_written (s : Setting) : ∃ argument rest, s.written = argument :: rest := by
  obtain ⟨slot, value, inline⟩ := s
  cases inline <;> exact ⟨_, _, rfl⟩

lemma Reads.parseFrom (h : Reads options settings options') (rest : List OsString) :
    parseFrom options (settings.flatMap Setting.written ++ rest) = parseFrom options' rest := by
  induction h with
  | nil => rfl
  | @cons options options' s settings legal free reads ih =>
    obtain ⟨argument, arguments, hw⟩ := s.exists_written
    have ht : turn options argument (arguments ++ (settings.flatMap Setting.written ++ rest)) =
        .ok (some (s.slot.set s.value options, settings.flatMap Setting.written ++ rest)) := by
      apply turn_written legal free
      rw [hw, List.cons_append]
    rw [List.flatMap_cons, hw, List.append_assoc, List.cons_append, parseFrom_some ht]
    exact ih

inductive Stops (options : Options) : List OsString → Except ArgError Invocation → Prop
  | done : Stops options [] (.ok (.run options))
  | help {text : String} {rest : List OsString} (isHelp : text ∈ helpFlags) :
    Stops options (.utf8 text :: rest) (.ok .help)
  | offends {rest : List OsString} {e : ArgError} (h : Offends options rest e) :
    Stops options rest (.error e)

lemma Stops.parseFrom {rest : List OsString} {r : Except ArgError Invocation}
    (h : Stops options rest r) : parseFrom options rest = r := by
  cases h with
  | done => exact parseFrom_nil
  | help isHelp => exact parseFrom_help (turn_help isHelp)
  | offends h =>
    cases rest with
    | nil => cases h
    | cons argument rest => exact parseFrom_error (turn_offends h)

lemma exists_reads (options : Options) (arguments : List OsString) :
    ∃ settings options' rest r, Reads options settings options' ∧
      arguments = settings.flatMap Setting.written ++ rest ∧ Stops options' rest r := by
  induction hn : arguments.length using Nat.strong_induction_on generalizing options arguments with
  | _ n ih =>
    cases arguments with
    | nil => exact ⟨[], options, [], _, .nil, rfl, .done⟩
    | cons argument arguments =>
      obtain ⟨text, hh, rfl⟩ | ⟨s, legal, free, rest, hw⟩ | ⟨e, ho⟩ :=
        turn_cases options argument arguments
      · exact ⟨[], options, _, _, .nil, rfl, .help hh⟩
      · have hl : rest.length < n := by
          obtain ⟨_, _, hs⟩ := s.exists_written
          rw [← hn, hw, hs, List.length_append, List.length_cons]
          omega
        obtain ⟨settings, options', rest', r, hr, rfl, hs⟩ :=
          ih _ hl (s.slot.set s.value options) rest rfl
        refine ⟨s :: settings, options', rest', r, .cons legal free hr, ?_, hs⟩
        rw [hw, List.flatMap_cons, List.append_assoc]
      · exact ⟨[], options, _, _, .nil, rfl, .offends ho⟩

lemma parseFrom_eq_iff {arguments : List OsString} {r : Except ArgError Invocation} :
    parseFrom options arguments = r ↔ ∃ settings options' rest, Reads options settings options' ∧
      arguments = settings.flatMap Setting.written ++ rest ∧ Stops options' rest r := by
  constructor
  · rintro rfl
    obtain ⟨settings, options', rest, r, hr, rfl, hs⟩ := exists_reads options arguments
    refine ⟨settings, options', rest, hr, rfl, ?_⟩
    rw [hr.parseFrom, hs.parseFrom]
    exact hs
  · rintro ⟨settings, options', rest, hr, rfl, hs⟩
    rw [hr.parseFrom, hs.parseFrom]

lemma reads_nil : Reads options [] options' ↔ options = options' := by
  constructor
  · rintro ⟨⟩
    rfl
  · rintro rfl
    exact .nil

lemma reads_cons {s : Setting} : Reads options (s :: settings) options' ↔
    s.Legal ∧ s.slot.of options = none ∧ Reads (s.slot.set s.value options) settings options' := by
  constructor
  · rintro ⟨⟩
    exact ⟨‹_›, ‹_›, ‹_›⟩
  · rintro ⟨legal, free, reads⟩
    exact .cons legal free reads

lemma reads_iff : Reads options settings options' ↔
    (∀ s ∈ settings, s.Legal) ∧ (settings.map Setting.slot).Nodup ∧
      (∀ s ∈ settings, s.slot.of options = none) ∧
      ∀ slot value, slot.of options' = some value ↔
        slot.of options = some value ∨ ∃ s ∈ settings, s.slot = slot ∧ s.value = value := by
  induction settings generalizing options with
  | nil =>
    rw [reads_nil]
    constructor
    · rintro rfl
      simp
    · rintro ⟨-, -, -, holds⟩
      apply Options.ext_of
      intro slot value
      simpa using (holds slot value).symm
  | cons s settings ih =>
    rw [reads_cons, ih, List.map_cons, List.nodup_cons, List.forall_mem_cons, List.forall_mem_cons]
    -- no later setting is of the slot this one fills
    have hfree : (∀ t ∈ settings, t.slot.of (s.slot.set s.value options) = none) ↔
        s.slot ∉ settings.map Setting.slot ∧ ∀ t ∈ settings, t.slot.of options = none := by
      simp only [Slot.of_set, List.mem_map, not_exists, not_and, ← forall₂_and]
      refine forall₂_congr fun t _ => ?_
      split_ifs with hs
      · simp [hs]
      · simp [Ne.symm hs]
    have hholds (free : s.slot.of options = none) (slot : Slot) (value : String) :
        (slot.of (s.slot.set s.value options) = some value ∨
          ∃ t ∈ settings, t.slot = slot ∧ t.value = value) ↔
        slot.of options = some value ∨ ∃ t ∈ s :: settings, t.slot = slot ∧ t.value = value := by
      rw [Slot.of_set, List.exists_mem_cons_iff]
      split_ifs with hs
      · subst hs
        simp [free]
      · simp [hs]
    rw [hfree]
    constructor
    · rintro ⟨legal, free, legals, once, ⟨hnot, frees⟩, holds⟩
      exact ⟨⟨legal, legals⟩, ⟨hnot, once⟩, ⟨free, frees⟩, fun slot value =>
        (holds slot value).trans (hholds free slot value)⟩
    · rintro ⟨⟨legal, legals⟩, ⟨hnot, once⟩, ⟨free, frees⟩, holds⟩
      exact ⟨legal, free, legals, once, ⟨hnot, frees⟩, fun slot value =>
        (holds slot value).trans (hholds free slot value).symm⟩

end Run

lemma settles_iff {settings : List Setting} {options : Options} {arguments : List OsString} :
    Settles settings options arguments ↔
      Reads ⟨none, none⟩ settings options ∧ arguments = settings.flatMap Setting.written := by
  have hn (slot : Slot) : slot.of ⟨none, none⟩ = none := by cases slot <;> rfl
  simp only [reads_iff, hn, implies_true, reduceCtorEq, false_or, true_and]
  constructor
  · rintro ⟨legal, once, written, holds⟩
    exact ⟨⟨legal, once, holds⟩, written⟩
  · rintro ⟨⟨legal, once, holds⟩, written⟩
    exact ⟨legal, once, written, holds⟩

lemma parseArgs_eq_iff {arguments : List OsString} {r : Except ArgError Invocation} :
    parseArgs arguments = r ↔ ∃ settings options before rest, Settles settings options before ∧
      arguments = before ++ rest ∧ Stops options rest r := by
  rw [parseArgs, parseFrom_eq_iff]
  constructor
  · rintro ⟨settings, options, rest, hr, hw, hs⟩
    exact ⟨settings, options, _, rest, settles_iff.mpr ⟨hr, rfl⟩, hw, hs⟩
  · rintro ⟨settings, options, before, rest, h, hw, hs⟩
    obtain ⟨hr, rfl⟩ := settles_iff.mp h
    exact ⟨settings, options, rest, hr, hw, hs⟩

namespace Options

def settings (order : List Slot) (options : Options) : List Setting :=
  order.filterMap fun slot => (slot.of options).map fun value => ⟨slot, value, true⟩

def rendered (order : List Slot) (options : Options) : List OsString :=
  (options.settings order).map fun s => .utf8 (s.slot.flag ++ "=" ++ s.value)

variable {order : List Slot} {options : Options}

lemma mem_settings {s : Setting} : s ∈ options.settings order ↔
    s.slot ∈ order ∧ s.slot.of options = some s.value ∧ s.inline = true := by
  rw [settings, List.mem_filterMap]
  constructor
  · rintro ⟨slot, hs, h⟩
    obtain ⟨value, hv, rfl⟩ := Option.map_eq_some_iff.mp h
    exact ⟨hs, hv, rfl⟩
  · obtain ⟨slot, value, inline⟩ := s
    rintro ⟨hs, hv : slot.of options = some value, rfl⟩
    exact ⟨slot, hs, by rw [hv]; rfl⟩

lemma settings_once (h : order.Nodup) : ((options.settings order).map Setting.slot).Nodup := by
  rw [settings, List.map_filterMap]
  apply h.filterMap
  intro a b slot ha hb
  simp only [Option.map_map, Option.mem_def, Option.map_eq_some_iff] at ha hb
  obtain ⟨_, _, rfl⟩ := ha
  obtain ⟨_, _, hb⟩ := hb
  exact hb.symm

lemma rendered_eq : options.rendered order = (options.settings order).flatMap Setting.written := by
  have hw (s : Setting) (hs : s ∈ options.settings order) :
      [OsString.utf8 (s.slot.flag ++ "=" ++ s.value)] = s.written := by
    rw [Setting.written, if_pos (mem_settings.mp hs).2.2]
  rw [rendered, List.map_eq_flatMap, List.flatMap_congr hw]

lemma settles_rendered (h : ∀ slot : Slot, slot.of options ≠ some "")
    (ho : order.Perm [.socket, .journal]) :
    Settles (options.settings order) options (options.rendered order) where
  legal s hs := by
    obtain ⟨-, hv, hi⟩ := mem_settings.mp hs
    refine ⟨fun he => h s.slot (he ▸ hv), fun hn => ?_⟩
    rw [hi] at hn
    cases hn
  once := settings_once (ho.nodup_iff.mpr (by decide))
  written := rendered_eq
  holds slot value := by
    have hm : slot ∈ order := ho.mem_iff.mpr (by cases slot <;> decide)
    constructor
    · intro hv
      exact ⟨⟨slot, value, true⟩, mem_settings.mpr ⟨hm, hv, rfl⟩, rfl, rfl⟩
    · rintro ⟨s, hs, rfl, rfl⟩
      exact (mem_settings.mp hs).2.1

end Options

/-- The command line asks for help, or gives the options of a run, or is refused at the first
argument that does not fit; and every options are read back from their rendering. -/
theorem parseArgs_grammar :
    (∀ arguments,
      (parseArgs arguments = .ok .help ↔ ∃ settings options before flag after,
        Settles settings options before ∧ flag ∈ helpFlags ∧
          arguments = before ++ .utf8 flag :: after) ∧
      (∀ options, parseArgs arguments = .ok (.run options) ↔
        ∃ settings, Settles settings options arguments) ∧
      ∀ e, parseArgs arguments = .error e ↔ ∃ settings options before rest,
        Settles settings options before ∧ arguments = before ++ rest ∧ Offends options rest e) ∧
    ∀ options : Options, (∀ slot : Slot, slot.of options ≠ some "") →
      ∀ order : List Slot, order.Perm [.socket, .journal] →
        parseArgs (options.rendered order) = .ok (.run options) := by
  have hrun (arguments : List OsString) (options : Options) :
      parseArgs arguments = .ok (.run options) ↔ ∃ settings, Settles settings options arguments := by
    rw [parseArgs_eq_iff]
    constructor
    · rintro ⟨settings, options, before, rest, hs, rfl, ⟨⟩⟩
      exact ⟨settings, by rwa [List.append_nil]⟩
    · rintro ⟨settings, hs⟩
      exact ⟨settings, options, arguments, [], hs, (List.append_nil _).symm, .done⟩
  refine ⟨fun arguments => ⟨?_, hrun arguments, fun e => ?_⟩, fun options h order ho => ?_⟩
  · rw [parseArgs_eq_iff]
    constructor
    · rintro ⟨settings, options, before, rest, hs, rfl, ⟨⟩⟩
      exact ⟨settings, options, before, _, _, hs, ‹_›, rfl⟩
    · rintro ⟨settings, options, before, flag, after, hs, hh, rfl⟩
      exact ⟨settings, options, before, _, hs, rfl, .help hh⟩
  · rw [parseArgs_eq_iff]
    constructor
    · rintro ⟨settings, options, before, rest, hs, rfl, ⟨⟩⟩
      exact ⟨settings, options, before, rest, hs, rfl, ‹_›⟩
    · rintro ⟨settings, options, before, rest, hs, rfl, h⟩
      exact ⟨settings, options, before, rest, hs, rfl, .offends h⟩
  · exact (hrun _ options).mpr ⟨_, Options.settles_rendered h ho⟩

theorem parseArgs_grammar_flag_shaped :
    parseArgs [.utf8 "--journal=--help", .utf8 "--socket=/run/a=b.sock"] =
      .ok (.run ⟨some "/run/a=b.sock", some "--help"⟩) :=
  parseArgs_grammar.2 ⟨some "/run/a=b.sock", some "--help"⟩ (fun slot => by cases slot <;> decide)
    [.journal, .socket] (.swap _ _ _)

end FpsMaxxing.CommandLine
