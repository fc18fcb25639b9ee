import Spotlight.Proofs.Session.Activate
import Spotlight.Proofs.Session.Travel

/-!
# Files that follow their history

The content of a file is told by what it held at first and by the recorded activations in force that touch
it. This is kept up by everything a session does:

* `Session.replay`, `Session.touching` — what activations make of a content, and which ones touch a file;
* `Session.Sound` — a recorded activation can be undone and repeated;
* `Session.Consistent` — the files follow the history, and all recorded activations are sound;
* `Session.Consistent.step` — the parts of the invariant that the steps of a session have in common;
* `Session.Consistent.travel` — undoing and repeating succeed, and keep it up;
* `Session.Consistent.of_backedUp`, `Session.Consistent.of_recorded` — so do backups and activations.
-/

namespace Spotlight.Session

open Files History

/-! ### Replaying activations -/

/-- What some activations make of a content, one after the other, if all of them succeed. -/
def replay : List History.Entry → Bytes → Option Bytes
  | [], content => some content
  | e :: es, content =>
    match Activation.run content (optionsOf e) with
    | .ok done => replay es done.text
    | .error _ => none

theorem replay_append (es es' : List History.Entry) (content : Bytes) :
    replay (es ++ es') content = (replay es content).bind (replay es') := by
  induction es generalizing content with
  | nil => rfl
  | cons e es ih =>
    rw [List.cons_append, replay, replay]
    cases Activation.run content (optionsOf e) with
    | ok done => exact ih done.text
    | error fault => rfl

/-- Does the path lead to the place? -/
def leadsTo (d : Disk) (p : Place) (path : Bytes) : Bool :=
  match d.locate path with
  | .ok q => q == p
  | .error _ => false

theorem leadsTo_of_ok {d : Disk} {path : Bytes} {q : Place} (h : d.locate path = .ok q) (p : Place) :
    leadsTo d p path = (q == p) := by
  rw [leadsTo, h]

theorem leadsTo_iff {d : Disk} {p : Place} {path : Bytes} :
    leadsTo d p path = true ↔ d.locate path = .ok p := by
  unfold leadsTo
  cases d.locate path with
  | ok q => simp
  | error r => simp

/-- The activations that touch the file at a place. -/
def touching (d : Disk) (p : Place) (es : List History.Entry) : List History.Entry :=
  es.filter fun e => leadsTo d p e.path

theorem touching_append (d : Disk) (p : Place) (es es' : List History.Entry) :
    touching d p (es ++ es') = touching d p es ++ touching d p es' :=
  List.filter_append ..

theorem touching_self {d : Disk} {p : Place} {e : History.Entry} (h : d.locate e.path = .ok p) :
    touching d p [e] = [e] := by
  rw [touching, List.filter_cons, if_pos (leadsTo_iff.2 h), List.filter_nil]

theorem touching_of_ne {d : Disk} {p q : Place} {e : History.Entry} (h : d.locate e.path = .ok q)
    (hne : p ≠ q) : touching d p [e] = [] := by
  have hno : ¬ leadsTo d p e.path = true := by
    rw [leadsTo_iff, h]
    intro heq
    exact hne (Except.ok.inj heq).symm
  rw [touching, List.filter_cons, if_neg hno, List.filter_nil]

/-- Paths that lead somewhere lead there as long as all folders stay. -/
theorem touching_of_evolves {d d' : Disk} (h : Disk.Evolves d d') {es : List History.Entry}
    (hes : ∀ e ∈ es, ∃ q, d.locate e.path = .ok q) (p : Place) : touching d' p es = touching d p es := by
  apply List.filter_congr
  intro e he
  obtain ⟨q, hq⟩ := hes e he
  rw [leadsTo_of_ok hq, leadsTo_of_ok (h.locate hq)]

/-! ### The invariant -/

/-- What files held when they were first seen. -/
abbrev Origin := Place → Option Bytes

/-- Files that were not seen before are seen now. -/
def firstSeen (origin : Origin) (d : Disk) : Origin := fun p => (origin p).or (d.content? p)

theorem firstSeen_of_some {origin : Origin} {p : Place} {b : Bytes} (h : origin p = some b) (d : Disk) :
    firstSeen origin d p = some b := by
  rw [firstSeen, h, Option.some_or]

theorem firstSeen_of_none {origin : Origin} {p : Place} (h : origin p = none) (d : Disk) :
    firstSeen origin d p = d.content? p := by
  rw [firstSeen, h, Option.none_or]

/-- Are the names to give all different, and good as names of files? -/
structure PlainNames (names : Nat → Bytes) : Prop where
  injective : ∀ m n, names m = names n → m = n
  isName : ∀ n, Path.IsName (names n)
  isUtf8 : ∀ n, (names n).isUtf8 = true

/-- A recorded activation, behind some earlier ones, that can be undone and repeated: the earlier ones lead
to the content before it, which its snapshot holds, and from there it leads to the content after it. -/
structure Sound (home : Place) (d : Desk) (origin : Origin) (earlier : List History.Entry)
    (e : History.Entry) : Prop where
  named : ∃ n < d.named, e.id = d.names n
  texts : e.repaired = { e with backup := Rune.repaired e.backup }
  located : d.disk.locate (Path.ofComponents true (Store.snapshotAt home e.id)) =
    .ok (Store.snapshotAt home e.id)
  contents : ∃ p b before done, d.disk.locate e.path = .ok p ∧ ¬ home <+: p ∧ origin p = some b ∧
    replay (touching d.disk p earlier) b = some before ∧ Digest.sha256 before = e.hashBefore ∧
    Activation.run before (optionsOf e) = .ok done ∧ Digest.sha256 done.text = e.hashAfter ∧
    d.disk.content? (Store.snapshotAt home e.id) = some before

/-- The files outside the history at `home` follow the history, and all its activations are sound. -/
structure Consistent (home : Place) (s : Store) (d : Desk) (origin : Origin) : Prop where
  isName : ∀ c ∈ home, Path.IsName c
  folder_eq : s.folder = Path.ofComponents true home
  folders : ∀ n ≤ home.length, d.disk.isFolderAt (home.take n) = true
  slot_eq : d.disk.slot (Store.fileIn s.folder) = .ok (Store.fileAt home)
  loads : ∀ t, ((Store.loadTimeline (Store.fileIn s.folder) : ExceptT Failure (StateM Desk) Timeline).run
    d).1 = .ok t → t = s.timeline.repaired
  names : PlainNames d.names
  ids : (s.timeline.entries.map History.Entry.id).Nodup
  sound : ∀ earlier e later, s.timeline.entries = earlier ++ e :: later → Sound home d origin earlier e
  seen : ∀ p b, ¬ home <+: p → d.disk.content? p = some b → origin p ≠ none
  contents : ∀ p b, ¬ home <+: p → origin p = some b → ∃ c, d.disk.content? p = some c ∧
    replay (touching d.disk p (s.timeline.entries.take s.timeline.done)) b = some c

theorem Sound.mono {home : Place} {d d' : Desk} {origin origin' : Origin} {earlier : List History.Entry}
    {e : History.Entry} (h : Sound home d origin earlier e) (hevolves : Disk.Evolves d.disk d'.disk)
    (hnames : d'.names = d.names) (hnamed : d.named ≤ d'.named)
    (horigin : ∀ p b, origin p = some b → origin' p = some b)
    (hearlier : ∀ e ∈ earlier, ∃ q, d.disk.locate e.path = .ok q)
    (hsnapshot : d'.disk.content? (Store.snapshotAt home e.id) =
      d.disk.content? (Store.snapshotAt home e.id)) : Sound home d' origin' earlier e := by
  obtain ⟨n, hn, hid⟩ := h.named
  obtain ⟨p, b, before, done, hp, houtside, hb, hbefore, hhash, hrun, hhash', hcontent⟩ := h.contents
  refine ⟨⟨n, by omega, by rw [hnames, hid]⟩, h.texts, hevolves.locate h.located, ?_⟩
  refine ⟨p, b, before, done, hevolves.locate hp, houtside, horigin p b hb, ?_, hhash, hrun, hhash', ?_⟩
  · rw [touching_of_evolves hevolves hearlier, hbefore]
  · rw [hsnapshot, hcontent]

/-! ### Steps of a session -/

namespace Direction

/-- The activations in force before the step, of some earlier ones and the one it is about. -/
def inForce : Direction → List History.Entry → History.Entry → List History.Entry
  | back, earlier, e => earlier ++ [e]
  | forth, earlier, _ => earlier

/-- Does the step find the new content of a file? It is in the snapshot, or the activation gives it. -/
def Finds : Direction → Place → Disk → History.Entry → Bytes → Bytes → Prop
  | back, home, d, e, _, new => d.content? (Store.snapshotAt home e.id) = some new
  | forth, _, _, e, old, new => ∃ done, Activation.run old (optionsOf e) = .ok done ∧ done.text = new

/-- Where the step stands in the timeline. -/
theorem exists_of_step? {dir : Direction} {t t' : Timeline} {e : History.Entry}
    (h : dir.step? t = some (e, t')) :
    ∃ earlier later, t.entries = earlier ++ e :: later ∧ t'.entries = t.entries ∧
      t.entries.take t.done = dir.inForce earlier e ∧
      t'.entries.take t'.done = dir.opposite.inForce earlier e := by
  have hsplit : ∀ {n : Nat}, t.entries[n]? = some e →
      t.entries = t.entries.take n ++ e :: t.entries.drop (n + 1) ∧
        t.entries.take (n + 1) = t.entries.take n ++ [e] := by
    intro n hget
    obtain ⟨hlt, rfl⟩ := List.getElem?_eq_some_iff.1 hget
    refine ⟨?_, (List.take_append_getElem hlt).symm⟩
    rw [← List.drop_eq_getElem_cons hlt, List.take_append_drop]
  cases dir with
  | back =>
    obtain ⟨hdone, hentries, hget⟩ := Timeline.undo?_eq_some_iff.1 h
    obtain ⟨hparts, htake⟩ := hsplit hget
    exact ⟨_, _, hparts, hentries, by rw [← hdone, htake]; rfl, by rw [hentries]; rfl⟩
  | forth =>
    obtain ⟨hdone, hentries, hget⟩ := Timeline.redo?_eq_some_iff.1 h
    obtain ⟨hparts, htake⟩ := hsplit hget
    exact ⟨_, _, hparts, hentries, rfl, by rw [hentries, hdone, htake]; rfl⟩

end Direction

/-- The command of some settings on a history. -/
def command (settings : Settings) (s : Store) : Session (StateM Desk) := ⟨settings, s, defaultWriter settings⟩

namespace Consistent

variable {home : Place} {s s' : Store} {d d' : Desk} {origin : Origin}

/-- The paths of all recorded activations lead to files that were seen. -/
theorem locate_of_mem (h : Consistent home s d origin) {e : History.Entry} (he : e ∈ s.timeline.entries) :
    ∃ q b, d.disk.locate e.path = .ok q ∧ ¬ home <+: q ∧ origin q = some b := by
  obtain ⟨earlier, later, hsplit⟩ := List.append_of_mem he
  obtain ⟨q, b, -, -, hq, houtside, hb, -⟩ := (h.sound earlier e later hsplit).contents
  exact ⟨q, b, hq, houtside, hb⟩

/-- The recorded activations touch what they touched as long as all folders stay. -/
theorem touching_eq (h : Consistent home s d origin) (hevolves : Disk.Evolves d.disk d'.disk)
    {es : List History.Entry} (hes : ∀ e ∈ es, e ∈ s.timeline.entries) (p : Place) :
    touching d'.disk p es = touching d.disk p es := by
  refine touching_of_evolves hevolves (fun e he => ?_) p
  obtain ⟨q, -, hq, -⟩ := h.locate_of_mem (hes e he)
  exact ⟨q, hq⟩

/-- A recorded activation stays sound as long as all folders stay and its snapshot does. -/
theorem sound_of_evolves (h : Consistent home s d origin) (hevolves : Disk.Evolves d.disk d'.disk)
    (hnames : d'.names = d.names) (hnamed : d.named ≤ d'.named) {earlier later : List History.Entry}
    {e : History.Entry} (hsplit : s.timeline.entries = earlier ++ e :: later)
    (hsnapshot : d'.disk.content? (Store.snapshotAt home e.id) =
      d.disk.content? (Store.snapshotAt home e.id)) : Sound home d' origin earlier e := by
  refine (h.sound earlier e later hsplit).mono hevolves hnames hnamed (fun _ _ hb => hb) ?_ hsnapshot
  intro e' he'
  obtain ⟨q, -, hq, -⟩ := h.locate_of_mem (e := e') (by rw [hsplit]; exact List.mem_append_left _ he')
  exact ⟨q, hq⟩

/-- The next name to give is none of those that were given. -/
theorem id_ne_of_mem (h : Consistent home s d origin) {e : History.Entry} (he : e ∈ s.timeline.entries) :
    e.id ≠ d.names d.named := by
  obtain ⟨earlier, later, hsplit⟩ := List.append_of_mem he
  obtain ⟨n, hn, hid⟩ := (h.sound earlier e later hsplit).named
  intro heq
  have := h.names.injective n d.named (by rw [← hid, heq])
  omega

/-- Places outside the history are none of its own. -/
theorem ne_of_outside {p : Place} (hp : ¬ home <+: p) :
    p ≠ Store.fileAt home ∧ ∀ id, p ≠ Store.snapshotAt home id := by
  constructor
  · rintro rfl
    exact hp (Store.home_prefix_fileAt home)
  · rintro id rfl
    exact hp (Store.home_prefix_snapshotAt home id)

/-- A step of a session keeps the invariant if its own part of it is kept: the history can be loaded, its
activations are sound, and the files that were there follow it. Files that are new are touched by nothing. -/
theorem step (h : Consistent home s d origin) (hfolder : s'.folder = s.folder)
    (hevolves : Disk.Evolves d.disk d'.disk) (hnames : d'.names = d.names)
    (hslot : d'.disk.slot (Store.fileIn s'.folder) = .ok (Store.fileAt home))
    (hloads : ∀ t, ((Store.loadTimeline (Store.fileIn s'.folder) : ExceptT Failure (StateM Desk) Timeline).run
      d').1 = .ok t → t = s'.timeline.repaired)
    (hids : (s'.timeline.entries.map History.Entry.id).Nodup)
    (hsound : ∀ earlier e later, s'.timeline.entries = earlier ++ e :: later →
      Sound home d' origin earlier e)
    (hcontents : ∀ p b, ¬ home <+: p → origin p = some b → ∃ c, d'.disk.content? p = some c ∧
      replay (touching d'.disk p (s'.timeline.entries.take s'.timeline.done)) b = some c) :
    Consistent home s' d' (firstSeen origin d'.disk) := by
  have horigin : ∀ p b, origin p = some b → firstSeen origin d'.disk p = some b :=
    fun p b hb => firstSeen_of_some hb _
  have hlocated : ∀ e ∈ s'.timeline.entries, ∃ q b, d'.disk.locate e.path = .ok q ∧ origin q = some b := by
    intro e he
    obtain ⟨earlier, later, hsplit⟩ := List.append_of_mem he
    obtain ⟨q, b, -, -, hq, -, hb, -⟩ := (hsound earlier e later hsplit).contents
    exact ⟨q, b, hq, hb⟩
  refine ⟨h.isName, by rw [hfolder, h.folder_eq], fun n hn => hevolves.isFolderAt _ (h.folders n hn), hslot,
    hloads, by rw [hnames]; exact h.names, hids, fun earlier e later hsplit => ?_, fun p b _ hb => ?_,
    fun p b hp hb => ?_⟩
  · refine (hsound earlier e later hsplit).mono (.refl _) rfl (Nat.le_refl _) horigin ?_ rfl
    intro e' he'
    obtain ⟨q, -, hq, -⟩ := hlocated e' (by rw [hsplit]; exact List.mem_append_left _ he')
    exact ⟨q, hq⟩
  · cases ho : origin p with
    | some b' => simp [firstSeen_of_some ho]
    | none => simp [firstSeen_of_none ho, hb]
  · cases ho : origin p with
    | some b' =>
      rw [firstSeen_of_some ho] at hb
      cases hb
      exact hcontents p b hp ho
    | none =>
      rw [firstSeen_of_none ho] at hb
      have hnone : touching d'.disk p (s'.timeline.entries.take s'.timeline.done) = [] := by
        rw [touching, List.filter_eq_nil_iff]
        intro e he hleads
        obtain ⟨q, b', hq, hb'⟩ := hlocated e (List.mem_of_mem_take he)
        rw [leadsTo_iff, hq] at hleads
        rw [Except.ok.inj hleads, ho] at hb'
        cases hb'
      exact ⟨b, hb, by rw [hnone]; rfl⟩

/-! ### Undoing and repeating -/

section

variable {dir : Direction} {e : History.Entry} {t : Timeline}

/-- What a step along the history finds, and what it is to leave behind. -/
theorem exists_of_step? (h : Consistent home s d origin) (hstep : dir.step? s.timeline = some (e, t)) :
    ∃ p b old new, d.disk.locate e.path = .ok p ∧ ¬ home <+: p ∧ origin p = some b ∧
      d.disk.content? p = some old ∧ Digest.sha256 old = dir.hashOld e ∧ Digest.sha256 new = dir.hashNew e ∧
      replay (touching d.disk p (t.entries.take t.done)) b = some new ∧
      (∀ r, r ≠ p → touching d.disk r (t.entries.take t.done) =
        touching d.disk r (s.timeline.entries.take s.timeline.done)) ∧
      dir.Finds home d.disk e old new := by
  obtain ⟨earlier, later, hsplit, hentries, htake, htake'⟩ := Direction.exists_of_step? hstep
  obtain ⟨p, b, before, done, hp, houtside, hb, hbefore, hhash, hrun, hhash', hsnapshot⟩ :=
    (h.sound earlier e later hsplit).contents
  obtain ⟨c, hc, hreplay⟩ := h.contents p b houtside hb
  have hafter : replay (touching d.disk p (earlier ++ [e])) b = some done.text := by
    rw [touching_append, touching_self hp, replay_append, hbefore, Option.bind_some, replay, hrun]
    rfl
  have hothers : ∀ r, r ≠ p → touching d.disk r (earlier ++ [e]) = touching d.disk r earlier := by
    intro r hr
    rw [touching_append, touching_of_ne hp hr, List.append_nil]
  cases dir with
  | back =>
    rw [Direction.inForce] at htake
    rw [Direction.opposite, Direction.inForce] at htake'
    rw [htake, hafter] at hreplay
    cases hreplay
    refine ⟨p, b, done.text, before, hp, houtside, hb, hc, hhash', hhash, ?_, fun r hr => ?_, hsnapshot⟩
    · rw [htake', hbefore]
    · rw [htake', htake, hothers r hr]
  | forth =>
    rw [Direction.inForce] at htake
    rw [Direction.opposite, Direction.inForce] at htake'
    rw [htake, hbefore] at hreplay
    cases hreplay
    refine ⟨p, b, before, done.text, hp, houtside, hb, hc, hhash, hhash', ?_, fun r hr => ?_, done, hrun, rfl⟩
    · rw [htake', hafter]
    · rw [htake', htake, hothers r hr]

/-- A step along the history keeps the invariant. -/
theorem of_step? (h : Consistent home s d origin) (hstep : dir.step? s.timeline = some (e, t)) {p : Place}
    {b old new : Bytes} (hp : d.disk.locate e.path = .ok p) (houtside : ¬ home <+: p)
    (hb : origin p = some b) (hold : d.disk.content? p = some old)
    (hnew : replay (touching d.disk p (t.entries.take t.done)) b = some new)
    (hothers : ∀ r, r ≠ p → touching d.disk r (t.entries.take t.done) =
      touching d.disk r (s.timeline.entries.take s.timeline.done)) (mode mode' : Nat)
    (hdisk : d'.disk = (d.disk.set (Store.fileAt home) (.file mode t.text)).set p (.file mode' new))
    (hnames : d'.names = d.names) (hnamed : d'.named = d.named) :
    Consistent home ⟨s.folder, t⟩ d' (firstSeen origin d'.disk) := by
  obtain ⟨-, -, -, hentries, -⟩ := Direction.exists_of_step? hstep
  obtain ⟨hfile, hsnapshots⟩ := ne_of_outside houtside
  have hsave := h.slot_eq
  obtain ⟨hlast, hlocate, hfolder⟩ := Disk.slot_eq_ok_iff.1 hsave
  have hagree₁ := Disk.AgreeOff.set hfolder mode t.text
  have hpfile : (d.disk.set (Store.fileAt home) (.file mode t.text)).isFolderAt p = false := by
    rw [hagree₁.isFolderAt_eq, Disk.isFolderAt_of_content? hold]
  have hagree₂ := Disk.AgreeOff.set hpfile mode' new
  rw [← hdisk] at hagree₂
  have hevolves : Disk.Evolves d.disk d'.disk := (Disk.Evolves.of_agreeOff hagree₁).trans (.of_agreeOff hagree₂)
  have hread : d'.disk.read (Store.fileIn s.folder) = .ok t.text := by
    refine (hagree₂.read_eq ?_).2 (Disk.read_set hsave mode t.text)
    rw [hagree₁.locate_iff.2 hlocate]
    simpa using Ne.symm hfile
  have hcontent : ∀ r, r ≠ Store.fileAt home → r ≠ p → d'.disk.content? r = d.disk.content? r := by
    intro r hrq hrp
    rw [hagree₂.content?_eq hrp, hagree₁.content?_eq hrq]
  refine h.step rfl hevolves hnames (hagree₂.slot_iff.2 (hagree₁.slot_iff.2 hsave)) ?_ ?_ ?_ ?_
  · exact fun t' ht' => Store.eq_repaired_of_loadTimeline hread ht'
  · rw [hentries]
    exact h.ids
  · intro earlier e' later hsplit
    rw [hentries] at hsplit
    exact h.sound_of_evolves hevolves hnames (by omega) hsplit
      (hcontent _ (Ne.symm (Store.fileAt_ne_snapshotAt home e'.id)) (Ne.symm (hsnapshots e'.id)))
  · intro r b' hr hb'
    have htouching : touching d'.disk r (t.entries.take t.done) =
        touching d.disk r (t.entries.take t.done) := by
      refine h.touching_eq hevolves (fun e' he' => ?_) r
      rw [← hentries]
      exact List.mem_of_mem_take he'
    by_cases hrp : r = p
    · subst hrp
      rw [hb] at hb'
      cases hb'
      refine ⟨new, ?_, by rw [htouching, hnew]⟩
      rw [hdisk, Disk.content?_set _ hpfile, if_pos rfl]
    · obtain ⟨c, hc, hreplay⟩ := h.contents r b' hr hb'
      exact ⟨c, by rw [hcontent r (ne_of_outside hr).1 hrp, hc], by
        rw [htouching, hothers r hrp, hreplay]⟩

/-- The history has moved, and the file is still as it was found. -/
theorem read_of_move (h : Consistent home s d origin) {path content : Bytes} {p : Place}
    (hp : d.disk.locate path = .ok p) (hne : p ≠ Store.fileAt home)
    (hcontent : d.disk.content? p = some content) (mode : Nat) (text : Bytes) :
    (d.disk.set (Store.fileAt home) (.file mode text)).read path = .ok content := by
  have hagree := Disk.AgreeOff.set (Disk.slot_eq_ok_iff.1 h.slot_eq).2.2 mode text
  refine (hagree.read_eq ?_).2 (Disk.read_eq_ok_iff_content?.2 ⟨p, hp, hcontent⟩)
  rw [hp]
  simpa using hne

/-- Undoing and repeating come down to writing the file, as everything they compare is as they expect it. -/
theorem perform_of_step? (h : Consistent home s d origin) {settings : Settings} (hasked : dir.asked settings)
    (hnvim : settings.nvim = false) (hstep : dir.step? s.timeline = some (e, t)) {p : Place} {old new : Bytes}
    (hp : d.disk.locate e.path = .ok p) (hne : p ≠ Store.fileAt home) (hold : d.disk.content? p = some old)
    (hhash : Digest.sha256 old = dir.hashOld e) (hhash' : Digest.sha256 new = dir.hashNew e)
    (hfinds : dir.Finds home d.disk e old new) :
    ∃ mode, ∀ r d', (Files.write e.path new : ExceptT Failure (StateM Desk) Unit).run
        { d with disk := d.disk.set (Store.fileAt home) (.file mode t.text) } = (r, d') →
      match r with
      | .ok _ => ∃ summary, (command settings s).perform d = ((⟨s.folder, t⟩, ⟨summary, none⟩), d')
      | .error _ => ((command settings s).perform d).2 =
          ((Store.move ⟨s.folder, t⟩ s.timeline : StateM Desk _) d').2 := by
  have hread := h.read_of_move hp hne hold
  have hwriter := defaultWriter_eq hnvim
  cases dir with
  | back =>
    obtain ⟨earlier, later, hsplit, -⟩ := Direction.exists_of_step? hstep
    have hsound := h.sound earlier e later hsplit
    obtain ⟨n, -, hid⟩ := hsound.named
    have hname : Path.IsName e.id := hid ▸ h.names.isName n
    have hundo : settings.undo = true := hasked
    have hsame : ¬ Digest.sha256 old ≠ e.hashAfter := not_not_intro hhash
    have hsame' : ¬ Digest.sha256 new ≠ e.hashBefore := not_not_intro hhash'
    have hperform : (command settings s).perform d = (command settings s).undo d := by
      simp only [perform, command, hundo, if_true]
    obtain ⟨mode, shown, hrun⟩ := undo_of_some (a := command settings s) hstep h.slot_eq
    have hsnapshot : (d.disk.set (Store.fileAt home) (.file mode t.text)).read
        (Store.snapshotPath ⟨s.folder, t⟩ e.id) = .ok new := by
      rw [Store.snapshotPath_eq (s := ⟨s.folder, t⟩) h.isName h.folder_eq hname]
      exact h.read_of_move hsound.located (Ne.symm (Store.fileAt_ne_snapshotAt home e.id)) hfinds mode t.text
    refine ⟨mode, fun r d' hwrite => ?_⟩
    have hentry : (undoEntry { command settings s with store := ⟨s.folder, t⟩ } shown e).run
        { d with disk := d.disk.set (Store.fileAt home) (.file mode t.text) } = (r, d') := by
      rw [run_undoEntry, hread]
      dsimp only [command]
      rw [if_neg hsame, hsnapshot]
      dsimp only
      rw [if_neg hsame', hwriter, hwrite]
    rw [hperform, hrun]
    dsimp only [command] at hentry ⊢
    rw [hentry]
    cases r with
    | ok _ => exact ⟨_, rfl⟩
    | error failure => rfl
  | forth =>
    obtain ⟨done, hdone, htext⟩ := hfinds
    have hsame : ¬ Digest.sha256 old ≠ e.hashBefore := not_not_intro hhash
    have hsame' : ¬ Digest.sha256 new ≠ e.hashAfter := not_not_intro hhash'
    have hperform : (command settings s).perform d = (command settings s).redo d := by
      simp only [perform, command, hasked.1, hasked.2, if_true]
      rfl
    obtain ⟨mode, shown, hrun⟩ := redo_of_some (a := command settings s) hstep h.slot_eq
    refine ⟨mode, fun r d' hwrite => ?_⟩
    have hentry : (redoEntry { command settings s with store := ⟨s.folder, t⟩ } shown e).run
        { d with disk := d.disk.set (Store.fileAt home) (.file mode t.text) } =
          (r.map fun _ => some done.disabled, d') := by
      rw [run_redoEntry, hread]
      dsimp only [command]
      rw [if_neg hsame, hdone]
      dsimp only
      rw [htext, if_neg hsame', hwriter, hwrite]
      cases r <;> rfl
    rw [hperform, hrun]
    dsimp only [command] at hentry ⊢
    rw [hentry]
    cases r with
    | ok _ => exact ⟨_, rfl⟩
    | error failure => rfl

/-- **Undoing and repeating succeed** unless something is refused, and leave behind what the history tells. -/
theorem travel (h : Consistent home s d origin) {settings : Settings} (hasked : dir.asked settings)
    (hnvim : settings.nvim = false) (hstep : dir.step? s.timeline = some (e, t))
    (hsmooth : Smooth (command settings s).perform d) :
    ∃ p b new summary d', d.disk.locate e.path = .ok p ∧ ¬ home <+: p ∧ origin p = some b ∧
      replay (touching d.disk p (t.entries.take t.done)) b = some new ∧
      (command settings s).perform d = ((⟨s.folder, t⟩, ⟨summary, none⟩), d') ∧
      d'.disk.content? p = some new ∧
      (∀ r, r ≠ Store.fileAt home → r ≠ p → d'.disk.get? r = d.disk.get? r) ∧
      Consistent home ⟨s.folder, t⟩ d' (firstSeen origin d'.disk) := by
  obtain ⟨p, b, old, new, hp, houtside, hb, hold, hhash, hhash', hnew, hothers, hfinds⟩ :=
    h.exists_of_step? hstep
  obtain ⟨hfile, -⟩ := ne_of_outside houtside
  obtain ⟨mode, hperform⟩ := h.perform_of_step? hasked hnvim hstep hp hfile hold hhash hhash' hfinds
  have hset := Disk.AgreeOff.set (Disk.slot_eq_ok_iff.1 h.slot_eq).2.2 mode t.text
  rcases write_cases { d with disk := d.disk.set (Store.fileAt home) (.file mode t.text) } e.path new with
    ⟨q, mode', hq, hqfile, hwrite⟩ | ⟨failure, fault, hwrite⟩
  · obtain rfl : q = p := Except.ok.inj (hq.symm.trans (hset.locate_iff.2 hp))
    have hset' := Disk.AgreeOff.set hqfile mode' new
    obtain ⟨summary, hdone⟩ := hperform _ _ hwrite
    refine ⟨q, b, new, summary, _, hp, houtside, hb, hnew, hdone, ?_, fun r hr hr' => ?_,
      h.of_step? hstep hp houtside hb hold hnew hothers mode mode' rfl rfl rfl⟩
    · rw [Disk.content?_set _ hqfile, if_pos rfl]
    · rw [hset'.get?_eq r hr', hset.get?_eq r hr]
  · have hgrows := Store.grows_move ⟨s.folder, t⟩ s.timeline
      { d with disk := d.disk.set (Store.fileAt home) (.file mode t.text), refused := d.refused ++ [fault] }
    have hfailed : ((command settings s).perform d).2 = _ := hperform _ _ hwrite
    rw [Smooth, hfailed] at hsmooth
    have hlonger : (d.refused ++ [fault]).length ≤ d.refused.length :=
      Nat.le_trans hgrows (Nat.le_of_eq hsmooth)
    rw [List.length_append, List.length_singleton] at hlonger
    omega

end

/-! ### Activating -/

section

variable {backup : Bytes} {disk : Disk}

/-- A backup outside the history keeps the invariant. -/
theorem of_backedUp (h : Consistent home s d origin) (hbacked : BackedUp backup d.disk d'.disk)
    (houtside : ∀ p, d.disk.locate backup = .ok p → ¬ home <+: p) (hnames : d'.names = d.names)
    (hnamed : d'.named = d.named) : Consistent home s d' (firstSeen origin d'.disk) := by
  obtain ⟨-, hlocate, -⟩ := Disk.slot_eq_ok_iff.1 h.slot_eq
  have hevolves := hbacked.evolves
  have hinside : ∀ r, home <+: r → d'.disk.get? r = d.disk.get? r :=
    fun r hr => hbacked.get?_of_ne fun hloc => houtside r hloc hr
  have hread : d'.disk.read (Store.fileIn s.folder) = d.disk.read (Store.fileIn s.folder) :=
    Disk.read_of_get? hlocate (hevolves.locate hlocate) (hinside _ (Store.home_prefix_fileAt home))
  refine h.step rfl hevolves hnames (hbacked.slot_iff.2 h.slot_eq) ?_ h.ids ?_ ?_
  · intro t ht
    rw [Store.run_loadTimeline, hread] at ht
    exact h.loads t (by rw [Store.run_loadTimeline]; exact ht)
  · intro earlier e later hsplit
    exact h.sound_of_evolves hevolves hnames (by omega) hsplit
      (Disk.content?_of_get? (hinside _ (Store.home_prefix_snapshotAt home e.id)))
  · intro p b hp hb
    obtain ⟨c, hc, hreplay⟩ := h.contents p b hp hb
    have hget := Disk.get?_ne_none_of_content? hc
    refine ⟨c, by rw [Disk.content?_of_get? (hbacked.get?_eq hget), hc], ?_⟩
    rw [h.touching_eq hevolves fun e he => List.mem_of_mem_take he, hreplay]

/-- A file that is read after a backup was made was there before, and follows the history. -/
theorem exists_of_read (h : Consistent home s d origin) (hbacked : BackedUp backup d.disk disk)
    {path before : Bytes} {p : Place} (hlook : ∃ status, d.disk.look path = .ok status)
    (hread : disk.read path = .ok before) (hp : disk.locate path = .ok p) (hoff : ¬ home <+: p) :
    d.disk.locate path = .ok p ∧ disk.content? p = some before ∧ ∃ b, origin p = some b ∧
      replay (touching d.disk p (s.timeline.entries.take s.timeline.done)) b = some before := by
  obtain ⟨status, hstatus⟩ := hlook
  obtain ⟨q, hq, hbefore⟩ := Disk.read_eq_ok_iff_content?.1 hread
  obtain rfl : q = p := Except.ok.inj (hq.symm.trans hp)
  have hq₀ : d.disk.locate path = .ok q := by
    rcases hbacked.agreeOff with rfl | ⟨r, -, -, hagree⟩
    · exact hp
    · exact hagree.locate_iff.1 hp
  have hbefore₀ : d.disk.content? q = some before := by
    rw [← hbefore, Disk.content?_of_get? (hbacked.get?_eq (get?_of_look_ok hstatus hq₀))]
  obtain ⟨b, hb⟩ := Option.ne_none_iff_exists'.1 (h.seen q before hoff hbefore₀)
  obtain ⟨c, hc, hreplay⟩ := h.contents q b hoff hb
  obtain rfl : c = before := Option.some.inj (hc.symm.trans hbefore₀)
  exact ⟨hq₀, hbefore, b, hb, hreplay⟩

/-- A recorded activation of a file outside the history keeps the invariant. -/
theorem of_recorded (h : Consistent home s d origin) {e : History.Entry} {p : Place} {before : Bytes}
    {done : Activation} {mode : Nat} (hbacked : BackedUp backup d.disk disk)
    (houtside : ∀ p, d.disk.locate backup = .ok p → ¬ home <+: p)
    (hlook : ∃ status, d.disk.look e.path = .ok status) (hread : disk.read e.path = .ok before)
    (hp : disk.locate e.path = .ok p) (hoff : ¬ home <+: p)
    (hrun : Activation.run before (optionsOf e) = .ok done) (hhash : Digest.sha256 before = e.hashBefore)
    (hhash' : Digest.sha256 done.text = e.hashAfter) (hid : e.id = d.names d.named)
    (htexts : e.repaired = { e with backup := Rune.repaired e.backup })
    (hrecorded : Store.Recorded home s e before (disk.set p (.file mode done.text)) d'.disk)
    (hnames : d'.names = d.names) (hnamed : d'.named = d.named + 1) :
    Consistent home ⟨s.folder, s.timeline.record e⟩ d' (firstSeen origin d'.disk) := by
  obtain ⟨hp₀, hbefore, b, hb, hreplay⟩ := h.exists_of_read hbacked hlook hread hp hoff
  have hfile := Disk.isFolderAt_of_content? hbefore
  have hset := Disk.AgreeOff.set hfile mode done.text
  have hevolves : Disk.Evolves d.disk d'.disk :=
    (hbacked.evolves.trans (.of_agreeOff hset)).trans hrecorded.evolves
  have hp' := hevolves.locate hp₀
  have htouching : ∀ r, touching d'.disk r (s.timeline.entries.take s.timeline.done) =
      touching d.disk r (s.timeline.entries.take s.timeline.done) :=
    h.touching_eq hevolves fun e he => List.mem_of_mem_take he
  have hfresh : ∀ u ∈ s.timeline.entries, u.id ≠ e.id := by
    intro u hu
    rw [hid]
    exact h.id_ne_of_mem hu
  refine h.step rfl hevolves hnames hrecorded.slot_eq
    (fun t ht => Store.eq_repaired_of_loadTimeline hrecorded.saved ht) (Store.nodup_record h.ids hfresh) ?_ ?_
  · intro earlier x later hsplit
    rcases Store.record_cases hsplit with ⟨rfl, rfl⟩ | ⟨hx, later, hsplit⟩
    · have hname : Path.IsName x.id := hid ▸ h.names.isName d.named
      refine ⟨⟨d.named, by omega, by rw [hnames, hid]⟩, htexts, ?_, ?_⟩
      · rw [← Store.snapshotPath_eq h.isName h.folder_eq hname]
        exact hrecorded.located
      · exact ⟨p, b, before, done, hp', hoff, hb, by rw [htouching, hreplay], hhash, hrun, hhash',
          hrecorded.snapshot⟩
    · refine h.sound_of_evolves hevolves hnames (by omega) hsplit ?_
      rw [hrecorded.kept x.id (fun u hu => Store.id_ne_of_undone h.ids hx hu)
        (hfresh x (List.mem_of_mem_take hx)), hset.content?_eq (Ne.symm ((ne_of_outside hoff).2 x.id))]
      exact Disk.content?_of_get? (hbacked.get?_of_ne fun hloc =>
        houtside _ hloc (Store.home_prefix_snapshotAt home x.id))
  · intro r b' hr hb'
    dsimp only
    rw [Store.take_record, touching_append, htouching]
    by_cases hrp : r = p
    · subst hrp
      obtain rfl : b = b' := Option.some.inj (hb.symm.trans hb')
      refine ⟨done.text, ?_, ?_⟩
      · rw [hrecorded.outside r hoff, Disk.content?_set _ hfile, if_pos rfl]
      · rw [touching_self hp', replay_append, hreplay, Option.bind_some, replay, hrun]
        rfl
    · obtain ⟨c, hc, hreplay'⟩ := h.contents r b' hr hb'
      have hget := Disk.get?_ne_none_of_content? hc
      refine ⟨c, ?_, ?_⟩
      · rw [hrecorded.outside r hr, hset.content?_eq hrp, Disk.content?_of_get? (hbacked.get?_eq hget), hc]
      · rw [touching_of_ne hp' hrp, List.append_nil, hreplay']

end

end Consistent

end Spotlight.Session
