import FpsMaxxing.Broker.Startup
import FpsMaxxing.Files.Seated
import FpsMaxxing.Safety.Redirect

/-! Coming up and going down, the broker takes away nothing but a socket at its own path, whatever
other users do in between; and what it leaves there is its own. -/

namespace FpsMaxxing

open Effects Files FileSystem

structure Ground where
  own : ℕ → Prop
  who : Process
  first : ℕ
  socket : Path
  journal : Path
  socketDir : List Segment
  socketAt : Passage
  journalDir : List Segment
  journalAt : Passage
  owns : own who.uid
  socket_below : Below socket socketDir
  journal_below : Below journal journalDir

namespace Ground

variable (G : Ground)

structure Settled (names : String → Prop) (v : Volume) : Prop where
  seated : Seated G.own G.first [(G.socketDir, G.socketAt), (G.journalDir, G.journalAt)] v
  shielded : ∀ name, names name → Shielded G.own G.who G.journalAt.inode name v

structure Held (name : String) (c : ℕ) (v : Volume) : Prop where
  entry : v.fs.entries G.socketAt.inode name = some c
  socket : v.isSocket c = true

structure Own (names : String → Prop) (name : String) (c : ℕ) (v : Volume) : Prop
    extends Settled G names v, Held G name c v where
  under : Under G.socket G.socketDir name
  uid : (v.fs.nodes c).uid = G.who.uid
  fresh : G.first ≤ c

abbrev Sparing {α : Type} (p : Program FileCalls α) (post : α → Volume → Prop) (w : Volume) : Prop :=
  p.Abides G.who.Calls (Volume.Step G.own)
    (fun e => Spares G.who.cwd G.socket journalFileMode e.before e.after) post w

variable {G} {names names' : String → Prop} {name : String} {c : ℕ} {path : Path}
  {v v' w : Volume}

namespace Settled

lemma socket_seat (h : G.Settled names v) : Seat G.own v.fs G.socketDir G.socketAt :=
  h.seated.seat _ List.mem_cons_self

lemma journal_seat (h : G.Settled names v) : Seat G.own v.fs G.journalDir G.journalAt :=
  h.seated.seat _ (List.mem_cons_of_mem _ (List.mem_singleton_self _))

lemma stable : Stable (Volume.Step G.own) (G.Settled names) :=
  fun _ _ h hs => ⟨Seated.stable _ _ h.seated hs, fun name hn =>
    (h.shielded name hn).step h.journal_seat hs⟩

lemma weaken (h : G.Settled names v) (hn : ∀ name, names' name → names name) :
    G.Settled names' v :=
  ⟨h.seated, fun name hname => h.shielded name (hn name hname)⟩

end Settled

lemma Held.step (h : G.Held name c v) (hset : G.Settled names v)
    (hs : Volume.Step G.own v v') : G.Held name c v' := by
  have hlt := (hset.seated.tree.used h.entry).2.1
  have hkeeps := hs.1.keeps hset.seated.tree
  obtain ⟨hflag, hkind⟩ := Volume.isSocket_iff.mp h.socket
  refine ⟨((hset.socket_seat.step hs.1).2 name).trans h.entry, Volume.isSocket_iff.mpr ⟨?_, ?_⟩⟩
  · rw [hs.2 c hlt, hflag]
  · rw [Node.kind_file_iff] at hkind ⊢
    rwa [hkeeps.isDir c hlt, hkeeps.target c hlt]

lemma Held.stable :
    Stable (Volume.Step G.own) fun v => G.Settled names v ∧ G.Held name c v :=
  fun _ _ h hs => ⟨Settled.stable _ _ h.1 hs, h.2.step h.1 hs⟩

lemma Own.stable : Stable (Volume.Step G.own) (G.Own names name c) := by
  intro v u h hs
  have hlt := (h.seated.tree.used h.entry).2.1
  have hkeeps := hs.1.keeps h.seated.tree
  exact ⟨Settled.stable _ _ h.toSettled hs, h.toHeld.step h.toSettled hs, h.under,
    (hkeeps.uid c hlt).trans h.uid, h.fresh⟩

lemma mode_closed : journalFileMode &&& 0o077 = 0 := rfl

lemma sparing_mild {α : Type} {o : FileOp} {next : o.Res → Program FileCalls α}
    {post : α → Volume → Prop} (ho : o.Mild journalFileMode) (h : G.Settled names w)
    (hn : ∀ v x u, G.Settled names v → G.who.Calls v o x u → G.Settled names u →
      G.Sparing (next x) post u) : G.Sparing (.call o next) post w := by
  refine Program.Abides.call Settled.stable h fun v x u hv hc => ?_
  obtain ⟨hseated, hspares, hshielded⟩ := hc.mild ho mode_closed G.owns hv.seated
  exact ⟨hspares, hn v x u hv hc
    ⟨hseated, fun name hname => hshielded _ _ (hv.shielded name hname)⟩⟩

lemma sparing_error {α : Type} (e : Files.Error) {post : α → Volume → Prop} (w : Volume) :
    G.Sparing (.done (.error e) : Program FileCalls (Except Files.Error α))
      (fun x v => ∀ a, x = .ok a → post a v) w :=
  fun _ _ _ hx => by cases hx

section journal

lemma restrictToOwner_sparing (h : G.Settled names w) :
    G.Sparing (restrictToOwner path) (fun _ => G.Settled names) w := by
  refine sparing_mild rfl h fun v x u _ _ hu => ?_
  cases x with
  | ok | error => exact .done Settled.stable hu

lemma restrictToOwner_shields (hunder : Under path G.journalDir name) (h : G.Settled names w) :
    G.Sparing (restrictToOwner path) (fun x v => (∀ e, x = .error e → e.kind = .notFound) →
      G.Settled (fun n => n = name ∨ names n) v) w := by
  refine sparing_mild rfl h fun v x u hv hc hu => ?_
  have hshields : (x = .ok () ∨ ∃ e : Files.Error, x = .error e ∧ e.kind = .notFound) →
      G.Settled (fun n => n = name ∨ names n) u := by
    intro hx
    refine ⟨hu.seated, fun n hn => ?_⟩
    rcases hn with rfl | hn
    · exact hc.shields hx mode_closed G.owns hv.journal_seat hunder
    · exact hu.shielded n hn
  cases x with
  | ok => exact .done (Settled.stable.imp _) fun _ => hshields (.inl rfl)
  | error e =>
    refine .done (Settled.stable.imp _) fun hx => hshields (.inr ⟨e, rfl, ?_⟩)
    exact hx (named path "restricted" e) rfl

lemma createOwnerOnly_sparing (hr : path.rooted = true) (h : G.Settled names w) :
    G.Sparing (createOwnerOnly path) (fun _ => G.Settled names) w := by
  refine sparing_mild ⟨hr, rfl⟩ h fun v x u _ _ hu => ?_
  cases x with
  | error => exact .done Settled.stable hu
  | ok file =>
    refine (restrictToOwner_sparing hu).seq fun x v hv => ?_
    cases x with
    | ok | error => exact .done Settled.stable hv

lemma createOwnerOnly_shields (h : G.Settled names w) :
    G.Sparing (createOwnerOnly G.journal) (fun x v => ∀ file, x = .ok file →
      ∃ name, Under G.journal G.journalDir name ∧ G.Settled (fun n => n = name ∨ names n) v) w := by
  have hr := G.journal_below.rooted
  refine sparing_mild ⟨hr, rfl⟩ h fun v x u hv hc hu => ?_
  cases x with
  | error e => exact sparing_error _ u
  | ok file =>
    have hunder : ∃ name, Under G.journal G.journalDir name := by
      cases hc with
      | opens hopen | creates hopen =>
        rw [if_pos hr] at hopen
        exact hv.journal_seat.openAt G.journal_below hopen
    obtain ⟨name, hname⟩ := hunder
    refine (restrictToOwner_shields hname hu).seq fun x v hx => ?_
    cases x with
    | error e => exact sparing_error e v
    | ok =>
      refine .done ?_ fun _ _ => ⟨name, hname, hx fun e he => by cases he⟩
      intro a b ha hs file hf
      obtain ⟨n, hn, hset⟩ := ha file hf
      exact ⟨n, hn, Settled.stable _ _ hset hs⟩

lemma restrictSides_shields (hunder : Under path G.journalDir name) (suffixes : List String)
    (h : G.Settled names w) : G.Sparing (restrictSides path suffixes) (fun x v => x = .ok () →
      G.Settled (fun n => (∃ suffix ∈ suffixes, n = name ++ suffix) ∨ names n) v) w := by
  induction suffixes generalizing names w with
  | nil =>
    refine .done (Settled.stable.imp _) fun _ => h.weaken ?_
    rintro n (⟨_, hs, _⟩ | hn)
    · cases hs
    · exact hn
  | cons suffix suffixes ih =>
    refine (restrictToOwner_shields (hunder.push suffix) h).seq fun x v hx => ?_
    have hrest : G.Settled (fun n => n = name ++ suffix ∨ names n) v →
        G.Sparing (restrictSides path suffixes) (fun x v => x = .ok () →
          G.Settled (fun n => (∃ s ∈ suffix :: suffixes, n = name ++ s) ∨ names n) v) v := by
      intro hv
      refine (ih hv).mono fun x u hu hx => (hu hx).weaken ?_
      rintro n (⟨s, hs, rfl⟩ | hn)
      · rcases List.mem_cons.mp hs with rfl | hs
        · exact .inr (.inl rfl)
        · exact .inl ⟨s, hs, rfl⟩
      · exact .inr (.inr hn)
    cases x with
    | ok => exact hrest (hx fun e he => by cases he)
    | error e =>
      by_cases hk : e.kind = .notFound
      · simp only [hk, if_true]
        refine hrest (hx fun e' he => ?_)
        cases he
        exact hk
      · simp only [hk, if_false]
        exact fun u _ hx => by cases hx

end journal

lemma lockSingleInstance_sparing (hr : path.rooted = true) (h : G.Settled names w) :
    G.Sparing (lockSingleInstance path) (fun _ => G.Settled names) w := by
  refine (createOwnerOnly_sparing hr h).seq fun x v hv => ?_
  cases x with
  | error => exact .done Settled.stable hv
  | ok file =>
    refine sparing_mild trivial hv fun v x u _ _ hu => ?_
    rcases x with (_ | _) | _
    all_goals exact .done Settled.stable hu

def JournalNames (name n : String) : Prop :=
  (∃ suffix ∈ journalSideSuffixes, n = name ++ suffix) ∨ n = name

lemma restrictJournal_shields (h : G.Settled names w) :
    G.Sparing (restrictJournal G.journal) (fun x v => x = .ok () →
      ∃ name, Under G.journal G.journalDir name ∧ G.Settled (JournalNames name) v) w := by
  refine (createOwnerOnly_shields h).seq fun x v hx => ?_
  cases x with
  | error => exact fun u _ hx => by cases hx
  | ok file =>
    obtain ⟨name, hname, hv⟩ := hx file rfl
    have hself : G.Settled (fun n => n = name) v := hv.weaken fun _ hn => .inl hn
    exact (restrictSides_shields hname journalSideSuffixes hself).mono fun x u hu hx =>
      ⟨name, hname, hu hx⟩

section socket

lemma lstat_socket (hc : G.who.Calls v (.lstat G.socket) (.ok ⟨c, true⟩) w)
    (h : G.Settled names v) : w = v ∧ ∃ name, Under G.socket G.socketDir name ∧ G.Held name c v := by
  generalize hm : (⟨c, true⟩ : Metadata) = m at hc
  cases hc with
  | @lstat _ _ r hr =>
    obtain ⟨rfl, hs⟩ := Metadata.mk.inj hm
    have hkind := (Volume.isSocket_iff.mp hs.symm).2
    obtain ⟨name, hname, he⟩ := h.socket_seat.found G.socket_below hr hkind
    exact ⟨rfl, name, hname, he, hs.symm⟩

lemma sparing_unlink {α : Type} {next : Except Files.Error Unit → Program FileCalls α}
    {post : α → Volume → Prop} (hunder : Under G.socket G.socketDir name) (h : G.Settled names w)
    (hheld : G.Held name c w) (hn : ∀ x u, G.Settled names u → G.Sparing (next x) post u) :
    G.Sparing (.call (.unlink G.socket) next) post w := by
  refine Program.Abides.call Held.stable ⟨h, hheld⟩ fun v x u hv hc => ?_
  obtain ⟨hset, hheld⟩ := hv
  obtain ⟨hseated, hspares, hshielded⟩ :=
    hc.unlinks hset.seated hset.socket_seat hunder hheld.entry hheld.socket
  exact ⟨hspares, hn x u ⟨hseated, fun n hname => hshielded _ _ (hset.shielded n hname)⟩⟩

lemma vacate_sparing (h : G.Settled names w) :
    G.Sparing (UnixSocketTransport.vacate G.socket) (fun _ => G.Settled names) w := by
  refine sparing_mild trivial h fun v x u hv hc hu => ?_
  rcases x with e | ⟨c, _ | _⟩
  · change G.Sparing (if e.kind = .notFound then _ else _) _ u
    split_ifs <;> exact .done Settled.stable hu
  · exact .done Settled.stable hu
  · obtain ⟨rfl, name, hunder, hheld⟩ := lstat_socket hc hv
    refine sparing_unlink hunder hv hheld fun x u hu => ?_
    rcases x with e | _
    · change G.Sparing (if e.kind = .notFound then _ else _) _ u
      split_ifs <;> exact .done Settled.stable hu
    · exact .done Settled.stable hu

lemma socketIdentity_finds (h : G.Own names name c w) :
    G.Sparing (socketIdentity G.socket) (fun x v => G.Own names name c v ∧
      ∀ identity, x = .ok identity → identity = c) w := by
  refine Program.Abides.call Own.stable h fun v x u hv hc => ?_
  have hstable : ∀ x : Except Files.Error ℕ, Stable (Volume.Step G.own) fun v =>
      G.Own names name c v ∧ ∀ identity, x = .ok identity → identity = c :=
    fun x a b ha hs => ⟨Own.stable _ _ ha.1 hs, ha.2⟩
  obtain ⟨r, hr, hinode, _⟩ := @Seat.find G.own v.fs false c G.who.cwd name _ _ _ hv.socket_seat
    hv.under hv.entry (.inl rfl)
  cases hc with
  | refused e =>
    exact ⟨.refl v, .done (hstable _) ⟨hv, fun identity hx => by cases hx⟩⟩
  | lstat hr' =>
    cases hr.symm.trans hr'
    refine ⟨.refl v, ?_⟩
    change G.Sparing (if v.isSocket r.inode then _ else _) _ v
    rw [hinode, if_pos hv.socket]
    refine .done (hstable _) ⟨hv, fun identity hx => ?_⟩
    cases hx
    rfl

lemma bind_owns (h : G.Settled names w) :
    G.Sparing (UnixSocketTransport.bind G.socket) (fun x v => ∀ transport, x = .ok transport →
      transport.path = G.socket ∧ ∃ name, G.Own names name transport.identity v) w := by
  refine (vacate_sparing h).seq fun x v hv => ?_
  cases x with
  | error e => exact sparing_error e v
  | ok =>
    refine sparing_mild G.socket_below.rooted hv fun v x u hv hc hu => ?_
    cases x with
    | error e => exact sparing_error _ u
    | ok =>
      have hown : ∃ name, G.Own names name v.fs.next u := by
        cases hc with
        | @bind _ _ d name hplace hfree =>
          obtain ⟨rfl, hunder⟩ := hv.socket_seat.place G.socket_below hplace
          have hnode : (v.fs.make G.socketAt.inode name (G.who.node 0o777)).nodes v.fs.next =
            G.who.node 0o777 := setNode_self _
          refine ⟨name, hu, ⟨put_entries_self _, Volume.isSocket_iff.mpr ⟨?_, ?_⟩⟩, hunder, ?_,
            hv.seated.born⟩
          · exact Function.update_self ..
          · exact congrArg Node.kind hnode
          · exact congrArg Node.uid hnode
      obtain ⟨name, hown⟩ := hown
      refine (socketIdentity_finds hown).seq fun x v' hv' => ?_
      cases x with
      | error e =>
        exact sparing_unlink hv'.1.under hv'.1.toSettled hv'.1.toHeld fun _ u _ => sparing_error e u
      | ok identity =>
        obtain rfl := hv'.2 identity rfl
        refine .done ?_ fun transport hx => ?_
        · intro a b ha hs transport hx
          obtain ⟨hpath, n, hn⟩ := ha transport hx
          exact ⟨hpath, n, Own.stable _ _ hn hs⟩
        · cases hx
          exact ⟨rfl, name, hv'.1⟩

lemma drop_sparing {transport : UnixSocketTransport} (hpath : transport.path = G.socket)
    (h : G.Own names name transport.identity w) :
    G.Sparing transport.drop (fun _ => G.Settled names) w := by
  rw [UnixSocketTransport.drop, hpath]
  refine (socketIdentity_finds h).seq fun x v hv => ?_
  cases x with
  | error => exact .done Settled.stable hv.1.toSettled
  | ok identity =>
    change G.Sparing (if identity = transport.identity then _ else _) _ v
    split_ifs
    · exact sparing_unlink hv.1.under hv.1.toSettled hv.1.toHeld fun _ u hu =>
        .done Settled.stable hu
    · exact .done Settled.stable hv.1.toSettled

end socket

lemma comeUp_owns {paths : Paths} (hs : paths.socket = G.socket) (hj : paths.journal = G.journal)
    (hr : paths.lock.rooted = true) (h : G.Settled names w) :
    G.Sparing (Unix.comeUp paths) (fun x v => ∀ transport, x = .ok transport →
      transport.path = G.socket ∧ ∃ journal, Under G.journal G.journalDir journal ∧
        ∃ name, G.Own (JournalNames journal) name transport.identity v) w := by
  rw [Unix.comeUp, hs, hj]
  refine (lockSingleInstance_sparing hr h).seq fun x v hv => ?_
  cases x with
  | error e => exact sparing_error e v
  | ok file =>
    refine (restrictJournal_shields hv).seq fun x v hx => ?_
    cases x with
    | error e => exact sparing_error e v
    | ok =>
      obtain ⟨journal, hjournal, hv⟩ := hx rfl
      refine (bind_owns hv).mono fun x u hx transport ht => ?_
      obtain ⟨hpath, hown⟩ := hx transport ht
      exact ⟨hpath, journal, hjournal, hown⟩

lemma run_sparing {paths : Paths} (hs : paths.socket = G.socket) (hj : paths.journal = G.journal)
    (hr : paths.lock.rooted = true) (h : G.Settled names w) :
    G.Sparing (Unix.run paths) (fun _ _ => True) w := by
  refine (comeUp_owns hs hj hr h).seq fun x v hx => ?_
  cases x with
  | error => exact fun _ _ => trivial
  | ok transport =>
    obtain ⟨hpath, journal, _, name, hown⟩ := hx transport rfl
    exact (drop_sparing hpath hown).seq fun _ _ _ _ _ => trivial

lemma of_resolved {os : Os} {fs : FileSystem} {brokerUid : ℕ} {options : Options} {base : Path}
    {lookup : String → Option Path} {paths : Paths} (ht : fs.Tree)
    (h : (resolvePathsFrom os fs brokerUid options base lookup).1 = .ok paths) :
    ∃ G : Ground, G.own = Trusted brokerUid ∧ G.who = os.process brokerUid ∧
      G.first = (resolvePathsFrom os fs brokerUid options base lookup).2.next ∧
      G.socket = paths.socket ∧ G.journal = paths.journal ∧ paths.lock.rooted = true ∧
      ∀ sockets, G.Settled (fun _ => False)
        ⟨(resolvePathsFrom os fs brokerUid options base lookup).2, sockets⟩ := by
  obtain ⟨directory, fs', hprivate, hleft, _, _, hlock, hvs, hvj⟩ := resolvePathsFrom_ok h
  obtain ⟨_, _, hp⟩ := privateDirectoryIn_ok ht hprivate
  have hseat : ∀ {p : Path}, vetResolvedPath os fs' brokerUid p = .ok () →
      ∃ segments r, Below p segments ∧ Seat (Trusted brokerUid) fs' segments r := by
    intro p hv
    obtain ⟨habs, parent, r, hparent, _, hreached, hclosed⟩ := reached_of_vetResolvedPath hv
    obtain ⟨_, _, hsplit⟩ := Path.parent_some habs hparent
    obtain ⟨gap, s, tail, hsegments, hs, hgap, htail⟩ := hsplit
    exact ⟨parent.segments, r, ⟨habs, gap, s, tail, hsegments, hs, hgap, htail⟩, hp.tree,
      hreached.walks, hreached.isDir, hreached.trusted, Node.not_open_of_mask (and_eq_zero hclosed rfl),
      hreached.guarded⟩
  obtain ⟨socketDir, socketAt, hsocket, hs⟩ := hseat hvs
  obtain ⟨journalDir, journalAt, hjournal, hj⟩ := hseat hvj
  rw [hleft]
  refine ⟨⟨Trusted brokerUid, os.process brokerUid, fs'.next, paths.socket, paths.journal,
    socketDir, socketAt, journalDir, journalAt, .inl rfl, hsocket, hjournal⟩, rfl, rfl, rfl, rfl,
    rfl, ?_, fun sockets => ⟨⟨hp.tree, le_rfl, fun x hx => ?_⟩, fun _ hn => hn.elim⟩⟩
  · rw [hlock, hp.joined]
    exact hp.rooted
  · simp only [List.mem_cons, List.not_mem_nil, or_false] at hx
    rcases hx with rfl | rfl
    · exact hs
    · exact hj

end Ground

def homely : FileSystem :=
  (resolvePathsFrom plainOs linked 1000 ⟨none, none⟩ (absolute ["home", "b"] []) fun _ => none).2

def homelyPaths : Paths :=
  ⟨absolute ["home", "b", "fpsmaxxing", "broker.sock"] [],
    absolute ["home", "b", "fpsmaxxing", "journal.sqlite"] [],
    absolute ["home", "b", "fpsmaxxing", "broker.lock"] []⟩

lemma homely_resolved : (resolvePathsFrom plainOs linked 1000 ⟨none, none⟩
    (absolute ["home", "b"] []) fun _ => none).1 = .ok homelyPaths := by
  decide +kernel

def homelyVolume : Volume := ⟨homely, fun _ => false⟩

def meddled (v : Volume) : Volume := { v with fs := v.fs.make 1 "y" ⟨1001, 1001, 0o600, .file⟩ }

lemma meddled_step {v : Volume} (hd : v.fs.Holds 1) (hn : v.fs.nodes 1 = linked.nodes 1)
    (he : v.fs.entries 1 "y" = none) : Volume.Step (Trusted 1000) v (meddled v) := by
  have hw : (v.fs.nodes 1).Writable ⟨1001, fun _ => false⟩ := by
    rw [hn]
    constructor
    · change 0o1777 &&& 2 * 1 ≠ 0
      decide
    · change 0o1777 &&& 1 * 1 ≠ 0
      decide
  have hu : ¬ Trusted 1000 1001 := by
    rintro (h | h)
    · cases h
    · cases h
  exact ⟨.create hu hd hw he rfl nofun, fun _ _ => rfl⟩

def meddledAt {α : Type} (p : Program FileCalls α) (n : ℕ) :
    List (Entry FileCalls Volume) × Program FileCalls α × Volume :=
  let first := p.advance (plainOs.process 1000).answer n homelyVolume
  first.2.1.advance (plainOs.process 1000).answer 13 (meddled first.2.2)

lemma meddledAt_run {α : Type} {p : Program FileCalls α} {n : ℕ} {a : α} {v : Volume}
    (hv : (p.advance (plainOs.process 1000).answer n homelyVolume).2.2 = v) (hd : v.fs.Holds 1)
    (hn : v.fs.nodes 1 = linked.nodes 1) (he : v.fs.entries 1 "y" = none)
    (hr : (meddledAt p n).2.1.result = some a) :
    ∃ tr, Amid (plainOs.process 1000).Calls (Volume.Step (Trusted 1000)) p homelyVolume tr (.done a)
      (meddledAt p n).2.2 := by
  subst hv
  obtain ⟨tr, h⟩ := Amid.start.steps
    (Program.advance_steps (plainOs.process 1000).answer_calls n p homelyVolume)
  have hrest := Program.advance_done (plainOs.process 1000).answer_calls hr
  exact (h.other (meddled_step hd hn he)).steps hrest

def homelyUp : Volume := (meddledAt (Unix.comeUp homelyPaths) 3).2.2

lemma homely_up : ∃ tr, Amid (plainOs.process 1000).Calls (Volume.Step (Trusted 1000))
    (Unix.comeUp homelyPaths) homelyVolume tr (.done (.ok ⟨homelyPaths.socket, 9⟩)) homelyUp :=
  meddledAt_run rfl ⟨by decide +kernel, by decide +kernel⟩ (by decide +kernel) (by decide +kernel)
    (by decide +kernel)

section

variable {os : Os} {fs : FileSystem} {brokerUid : ℕ} {options : Options} {base : Path}
  {lookup : String → Option Path} {paths : Paths} {sockets : ℕ → Bool}
  {tr : List (Change FileCalls Volume)} {v : Volume}

/-- Whatever other users do meanwhile, no call the broker makes for its lock, its journal and its
socket takes away anything but a socket at the path of its socket, or changes anything but a mode. -/
theorem run_spares {q : Program FileCalls (Except Files.Error Unit)} (ht : fs.Tree)
    (h : (resolvePathsFrom os fs brokerUid options base lookup).1 = .ok paths)
    (hr : Amid (os.process brokerUid).Calls (Volume.Step (Trusted brokerUid)) (Unix.run paths)
      ⟨(resolvePathsFrom os fs brokerUid options base lookup).2, sockets⟩ tr q v) :
    ∀ e ∈ tr, Spares os.cwd paths.socket journalFileMode e.before e.after := by
  obtain ⟨G, ho, hw, _, hsocket, hjournal, hlock, hset⟩ := Ground.of_resolved ht h
  have hrun := Ground.run_sparing hsocket.symm hjournal.symm hlock (hset sockets)
  rw [Ground.Sparing, ho, hw, hsocket] at hrun
  exact (hrun.amid hr).1

theorem run_spares_homely : ∃ tr v, Amid (plainOs.process 1000).Calls (Volume.Step (Trusted 1000))
    (Unix.run homelyPaths) homelyVolume tr (.done (.ok ())) v ∧ v.fs.entries 1 "y" = some 7 ∧
      ∀ e ∈ tr, Spares 0 homelyPaths.socket journalFileMode e.before e.after := by
  obtain ⟨tr, h⟩ := meddledAt_run (p := Unix.run homelyPaths) (n := 3) rfl
    ⟨by decide +kernel, by decide +kernel⟩ (by decide +kernel) (by decide +kernel)
    (a := .ok ()) (by decide +kernel)
  exact ⟨tr, _, h, by decide +kernel, run_spares linked_tree homely_resolved h⟩

/-- Once the broker is up and as long as it does not close the socket, the path of the socket leads
to the one that this broker has made, whatever other users do. -/
theorem endpoint_stands {transport : UnixSocketTransport} (ht : fs.Tree)
    (h : (resolvePathsFrom os fs brokerUid options base lookup).1 = .ok paths)
    (hr : Amid (os.process brokerUid).Calls (Volume.Step (Trusted brokerUid)) (Unix.comeUp paths)
      ⟨(resolvePathsFrom os fs brokerUid options base lookup).2, sockets⟩ tr
      (.done (.ok transport)) v) :
    transport.path = paths.socket ∧ v.isSocket transport.identity = true ∧
      (v.fs.nodes transport.identity).uid = brokerUid ∧
      (resolvePathsFrom os fs brokerUid options base lookup).2.next ≤ transport.identity ∧
      ∃ r, v.fs.resolve false os.cwd paths.socket = .ok r ∧ r.inode = transport.identity := by
  obtain ⟨G, ho, hw, hfirst, hsocket, hjournal, hlock, hset⟩ := Ground.of_resolved ht h
  have hup := Ground.comeUp_owns hsocket.symm hjournal.symm hlock (hset sockets)
  rw [Ground.Sparing, ho, hw] at hup
  obtain ⟨hpath, _, _, name, hown⟩ := hup.returned hr transport rfl
  obtain ⟨r, hfind, hinode, _⟩ := @Seat.find G.own v.fs false _ os.cwd name _ _ _
    hown.socket_seat hown.under hown.entry (.inl rfl)
  have huid := hown.uid
  have hfresh := hown.fresh
  rw [hw] at huid
  rw [hfirst] at hfresh
  rw [hsocket] at hpath hfind
  exact ⟨hpath, hown.socket, huid, hfresh, r, hfind, hinode⟩

theorem endpoint_stands_homely : homelyUp.isSocket 9 = true ∧
    (homelyUp.fs.nodes 9).uid = 1000 ∧ homely.next ≤ 9 ∧
      ∃ r, homelyUp.fs.resolve false 0 homelyPaths.socket = .ok r ∧ r.inode = 9 := by
  obtain ⟨_, h⟩ := homely_up
  obtain ⟨_, hrest⟩ := endpoint_stands linked_tree homely_resolved h
  exact hrest

/-- Then no other user can do anything with the journal or a file beside it, whatever they did
before and do since, unless it is root that has found the file of another user there. -/
theorem journal_shielded {transport : UnixSocketTransport} (ht : fs.Tree)
    (h : (resolvePathsFrom os fs brokerUid options base lookup).1 = .ok paths)
    (hr : Amid (os.process brokerUid).Calls (Volume.Step (Trusted brokerUid)) (Unix.comeUp paths)
      ⟨(resolvePathsFrom os fs brokerUid options base lookup).2, sockets⟩ tr
      (.done (.ok transport)) v) :
    ∀ path ∈ paths.journal :: journalSideSuffixes.map paths.journal.push, ∀ r,
      v.fs.resolve false os.cwd path = .ok r → (v.fs.nodes r.inode).kind = .file →
      v.isSocket r.inode = false →
        (∀ u : User, ¬ Trusted brokerUid u.uid → ∀ access, ¬ (v.fs.nodes r.inode).Permits u access) ∨
          brokerUid = rootUid ∧ ¬ Trusted brokerUid (v.fs.nodes r.inode).uid := by
  obtain ⟨G, ho, hw, _, hsocket, hjournal, hlock, hset⟩ := Ground.of_resolved ht h
  have hup := Ground.comeUp_owns hsocket.symm hjournal.symm hlock (hset sockets)
  rw [Ground.Sparing, ho, hw] at hup
  obtain ⟨_, name, hunder, _, hown⟩ := hup.returned hr transport rfl
  intro path hpath r hfind hkind hsock
  have hnamed : ∃ n, Under path G.journalDir n ∧ Ground.JournalNames name n := by
    rw [hjournal] at hunder
    rcases List.mem_cons.mp hpath with rfl | hside
    · exact ⟨name, hunder, .inr rfl⟩
    · obtain ⟨suffix, hs, rfl⟩ := List.mem_map.mp hside
      exact ⟨name ++ suffix, hunder.push suffix, .inl ⟨suffix, hs, rfl⟩⟩
  obtain ⟨n, hn, hjournalName⟩ := hnamed
  obtain ⟨n', hn', he⟩ := hown.journal_seat.found hn.below hfind hkind
  obtain rfl := hn.name_eq hn'
  have hshielded := hown.shielded _ hjournalName r.inode he hkind hsock
  rw [ho, hw] at hshielded
  refine hshielded.imp (fun ⟨htrusted, hmode⟩ u hu => not_permits hmode fun huid => hu ?_) id
  rwa [huid]

theorem journal_shielded_homely : ∃ r, homelyUp.fs.resolve false 0 homelyPaths.journal = .ok r ∧
    ∀ u : User, ¬ Trusted 1000 u.uid → ∀ access, ¬ (homelyUp.fs.nodes r.inode).Permits u access := by
  have hfound : (homelyUp.fs.resolve false 0 homelyPaths.journal).map (·.inode) = .ok 8 := by
    decide +kernel
  obtain ⟨r, hr, hinode⟩ := map_ok hfound
  have hfile : (homelyUp.fs.nodes r.inode).kind = .file ∧ homelyUp.isSocket r.inode = false := by
    rw [hinode]
    decide +kernel
  obtain ⟨_, h⟩ := homely_up
  have hshielded := journal_shielded linked_tree homely_resolved h homelyPaths.journal
    List.mem_cons_self r hr hfile.1 hfile.2
  exact ⟨r, hr, hshielded.resolve_right fun hroot => by cases hroot.1⟩

end

end FpsMaxxing
