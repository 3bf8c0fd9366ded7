import Recital.Proofs.Player.RequestChanges
import Recital.Proofs.Session.Keys
import Recital.Proofs.Session.Refused
import Recital.Proofs.Store.Snapshots

/-!
# A saved snapshot stays in its file

A player that keeps its snapshots in a directory writes to keys of two kinds only: the one of
automatic saves, and the keys of requests to save, each of which is given once.  So the file that a
request to save has written is left alone, whatever is done afterwards (`Session.Keeps.does`), and
from the moment when the request is taken up until it is answered nobody else writes to its key
(`Session.Saving.does`).

`Session.Archives` is what all of this rests on: the tree is sound, values can be read back from
their text, and the breakpoints are in order.
-/

namespace Recital

/-- What nests less deeply fits where more is allowed. -/
lemma Json.Fits.mono {m n : Nat} {j : Json} (h : j.Fits m) (hle : m ≤ n) : j.Fits n := by
  induction h generalizing n with
  | null => exact .null
  | bool => exact .bool
  | num hproper => exact .num hproper
  | str => exact .str
  | arr _ ih =>
    obtain ⟨n, rfl⟩ := Nat.exists_eq_add_of_le' (Nat.le_trans (Nat.le_add_left 1 _) hle)
    exact .arr fun j hj => ih j hj (Nat.le_of_succ_le_succ hle)
  | obj _ ih =>
    obtain ⟨n, rfl⟩ := Nat.exists_eq_add_of_le' (Nat.le_trans (Nat.le_add_left 1 _) hle)
    exact .obj fun e he => ih e he (Nat.le_of_succ_le_succ hle)

lemma Json.IsPortable.isReadable {j : Json} (h : j.IsPortable) : j.IsReadable :=
  ⟨h.normal, h.fits.mono (Nat.sub_le _ _)⟩

lemma Store.Yields.mono {P Q : Json → Prop} {store : Store} (h : store.Yields P)
    (hPQ : ∀ j, P j → Q j) : store.Yields Q :=
  fun later hlater key j s hload hs e he => hPQ _ (h later hlater key j s hload hs e he)

lemma Store.load_of_document? {s : Store} {key : String} {j : Json} (h : s.document? key = some j) :
    s.load key = .ok (some j) := by
  unfold document? at h
  split at h
  · next hload => rw [hload, h]
  · cases h

/-- Numbers in increasing order stay as they are. -/
lemma Context.marks_of_pairwise {ns : List Nat} (h : ns.Pairwise (· < ·)) : marks ns = ns := by
  induction ns with
  | nil => rfl
  | cons n ns ih =>
    obtain ⟨hhead, hrest⟩ := List.pairwise_cons.mp h
    change insertMark n (marks ns) = n :: ns
    rw [ih hrest]
    cases ns with
    | nil => rfl
    | cons m ns => exact if_pos (hhead m List.mem_cons_self)

/-! ### What a player has filed -/

namespace LastingPart

variable {P : Json → Prop} {b c : LastingPart} {d : Store.Directory} {key : String}

/-- Snapshots go to the directory, whose tree is sound, and the breakpoints are in order. -/
structure IsFiled (d : Store.Directory) (b : LastingPart) : Prop where
  store : ∃ u, b.store = some (.directory d u) ∧ u.IsSound
  breakpoints : b.context.breakpoints.Pairwise (· < ·)

/-- The document that is found under a key. -/
def document? (b : LastingPart) (key : String) : Option Json := b.store.bind (·.document? key)

end LastingPart

variable {P : Json → Prop} {K : String → Prop} {d : Store.Directory} {key : String}

/-- One lasting change keeps the tree sound and the breakpoints in order. -/
lemma LastingChange.isFiled {b c : LastingPart} (h : LastingChange P K b c) (hb : b.IsFiled d) :
    c.IsFiled d := by
  cases h with
  | moves | resets | tells | closes | asks | forgets | assigns | clears | loads | keeps | drops =>
    exact { hb with }
  | marks h => exact ⟨hb.store, h hb.breakpoints⟩
  | restores => exact ⟨hb.store, Context.pairwise_marks _⟩
  | writes hstore =>
    obtain ⟨u, hu, hsound⟩ := hb.store
    obtain rfl := Option.some.inj (hu.symm.trans hstore)
    exact ⟨⟨_, rfl, Store.IsSound.save (s := .directory d u) hsound _ _⟩, hb.breakpoints⟩

/-- A change that writes to other keys leaves a document as it is. -/
lemma LastingChange.document? {b c : LastingPart} (h : LastingChange P (· ≠ key) b c)
    (hb : b.IsFiled d) :
    c.document? key = b.document? key := by
  cases h with
  | moves | resets | tells | closes | asks | forgets | assigns | clears | loads | marks | restores |
    keeps | drops => rfl
  | writes hstore hkey =>
    obtain ⟨u, hu, hsound⟩ := hb.store
    obtain rfl := Option.some.inj (hu.symm.trans hstore)
    unfold LastingPart.document?
    rw [hu]
    exact Store.Directory.document?_save_of_ne hsound hkey _

namespace Player

variable {p q : Player}

lemma LastingChanges.isFiled (h : LastingChanges P K p q) (hp : p.lastingPart.IsFiled d) :
    q.lastingPart.IsFiled d := by
  unfold LastingChanges at h
  generalize q.lastingPart = c at h
  induction h with
  | refl => exact hp
  | tail _ hchange ih => exact hchange.isFiled ih

/-- As long as nobody writes to a key, its document stays as it is. -/
lemma LastingChanges.document? (h : LastingChanges P (· ≠ key) p q) (hp : p.lastingPart.IsFiled d) :
    q.lastingPart.document? key = p.lastingPart.document? key := by
  have hboth :
      q.lastingPart.IsFiled d ∧ q.lastingPart.document? key = p.lastingPart.document? key := by
    unfold LastingChanges at h
    generalize q.lastingPart = c at h
    induction h with
    | refl => exact ⟨hp, rfl⟩
    | tail _ hchange ih => exact ⟨hchange.isFiled ih.1, (hchange.document? ih.1).trans ih.2⟩
  exact hboth.2

/-- A request to save that is taken up goes on to write a snapshot under the next key. -/
lemma step_save {store : Store} {x : Snapshot} (id : Nat) (hstore : p.store = some store)
    (hx : p.snapshot? = some x) :
    p.step id (.entering .save) =
      ({ p with serial := p.serial + 1 }, .goes (.storing (Snapshot.key p.serial) x)) := by
  have hsnapshot : p.context.snapshot? (Instant.ofMillis p.now) = some x := hx
  change p.requestSave = _
  unfold requestSave
  rw [hstore, hsnapshot]
  rfl

/-- Writing a snapshot is answered at once, and when the answer is the key, the snapshot is in its
file. -/
lemma step_storing {x : Snapshot} (id : Nat) (key : String) (hp : p.lastingPart.IsFiled d)
    (hx : x.IsPortable) :
    ∃ answer, (p.step id (.storing key x)).2 = .ends answer ∧
      ∀ name, answer = .key name →
        name = key ∧ (p.step id (.storing key x)).1.lastingPart.document? key = some x.sorted := by
  obtain ⟨u, hu, hsound⟩ := hp.store
  have hstore : p.store = some (.directory d u) := hu
  change ∃ answer, (p.storeSnapshot key x).2 = .ends answer ∧ ∀ name, answer = .key name →
    name = key ∧ (p.storeSnapshot key x).1.lastingPart.document? key = some x.sorted
  unfold storeSnapshot write
  rw [hstore]
  cases hsave : d.save u key x.toJson.normalize with
  | mk result v =>
    simp only [Store.save, hsave]
    cases result with
    | error e => exact ⟨_, rfl, fun name hname => by cases hname⟩
    | ok =>
      refine ⟨_, rfl, fun name hname => ?_⟩
      cases hname
      exact ⟨rfl, Store.Directory.document?_save hsound hx hsave⟩

end Player

/-- The scripts that the host supplies set variables to values that can be read. -/
def Host.LoadsReadable (h : Host) : Prop :=
  ∀ load name script, h.loader = some load → load name = .ok script → script.Sets Json.IsReadable

namespace Session

variable {s s' : Session} {a : Action} {host : Host} {id n : Nat} {x : Snapshot}

/-! ### Sessions that file snapshots -/

/-- Snapshots go to the directory, and the values in them can be read back from their text. -/
structure Archives (d : Store.Directory) (host : Host) (s : Session) : Prop where
  distinct : s.Distinct
  sets : s.Sets Json.IsReadable
  host : s.player.host = host
  filed : s.player.lastingPart.IsFiled d
  keyed : s.Keyed

namespace Archives

lemma created {bus : Bus} {tree : FileTree} (htree : tree.IsSound) (hloads : host.LoadsReadable) :
    Archives d host { player := .create host bus (some (.directory d tree)) } where
  distinct := List.nodup_nil
  sets := .created hloads fun store h => by
    obtain rfl := Option.some.inj h
    exact (Store.yields_directory d tree).mono fun _ => Json.IsPortable.isReadable
  host := rfl
  filed := ⟨⟨tree, rfl, htree⟩, .nil⟩
  keyed := fun _ ht => absurd ht List.not_mem_nil

/-- This is true whatever is done with values that can be read. -/
lemma does (h : s.Archives d host) (ha : a.Sets Json.IsReadable) (hdoes : s.Does a s') :
    s'.Archives d host := by
  obtain ⟨hchanges, hsets⟩ := hdoes.lastingChanges_of_sets h.sets ha
  exact ⟨hdoes.distinct h.distinct, hsets, hchanges.host.trans h.host, hchanges.isFiled h.filed,
    h.keyed.does h.distinct hdoes⟩

lemma evolves (h : s.Archives d host) (hs : s.Evolves (Action.Sets Json.IsReadable) s') :
    s'.Archives d host := by
  induction hs with
  | refl => exact h
  | tail _ hmay ih =>
    obtain ⟨a, ha, hdoes⟩ := hmay
    exact ih.does ha hdoes

end Archives

/-! ### What has been filed -/

/-- Nobody who is yet to write does so under the key of the save with the given number. -/
lemma Does.writes (hdoes : s.Does a s') (hdistinct : s.Distinct) (hn : n < s.player.serial)
    (hleft : s'.player.serial ≤ 32 ^ 26) {t : Task} (ht : t ∈ s'.tasks)
    (hold : t ∈ s.tasks → t.phase.Writes (· ≠ Snapshot.key n)) :
    t.phase.Writes (· ≠ Snapshot.key n) := by
  cases hphase : t.phase with
  | storing key x =>
    rcases hdoes.storing hdistinct ht hphase with hmem | ⟨rfl, hlt⟩
    · exact hphase ▸ hold hmem
    · intro heq
      have hsame := Snapshot.key_inj (by omega) (by omega) heq
      omega
  | _ => trivial

/-- The snapshot is in the file of the save with the given number, and nobody is going to write to
it. -/
structure Keeps (n : Nat) (x : Snapshot) (s : Session) : Prop where
  given : n < s.player.serial
  others : ∀ t ∈ s.tasks, t.phase.Writes (· ≠ Snapshot.key n)
  document : s.player.lastingPart.document? (Snapshot.key n) = some x.sorted

lemma Keeps.does (h : s.Keeps n x) (harchives : s.Archives d host) (ha : a.Sets Json.IsReadable)
    (hautosave : host.config.pacing.autosaveKey ≠ Snapshot.key n) (hdoes : s.Does a s')
    (hleft : s'.player.serial ≤ 32 ^ 26) : s'.Keeps n x := by
  rw [← harchives.host] at hautosave
  obtain ⟨hchanges, -⟩ := hdoes.changes harchives.sets ha h.others hautosave
  exact ⟨Nat.lt_of_lt_of_le h.given hdoes.serial_le,
    fun t ht => hdoes.writes harchives.distinct h.given hleft ht (h.others t),
    (hchanges.document? harchives.filed).trans h.document⟩

/-- Whatever is done, it stays there. -/
lemma Keeps.evolves (h : s.Keeps n x) (harchives : s.Archives d host)
    (hautosave : host.config.pacing.autosaveKey ≠ Snapshot.key n)
    (hs : s.Evolves (Action.Sets Json.IsReadable) s') (hleft : s'.player.serial ≤ 32 ^ 26) :
    s'.Keeps n x := by
  induction hs with
  | refl => exact h
  | tail hs hmay ih =>
    obtain ⟨a, ha, hdoes⟩ := hmay
    exact (ih (Nat.le_trans hdoes.serial_le hleft)).does (harchives.evolves hs) ha hautosave hdoes
      hleft

/-! ### A request that files a snapshot -/

/-- The request with the number `id` saves the snapshot under the key with the number `n`.  Until it
is answered, nobody else is going to write to the key; when the answer is the key, the snapshot is
kept. -/
inductive Saving (id n : Nat) (x : Snapshot) (s : Session) : Prop
  | waits (hgiven : n < s.player.serial) (hnone : s.answer? id = none)
    (hmem : ⟨id, .storing (Snapshot.key n) x⟩ ∈ s.tasks)
    (hothers : ∀ t ∈ s.tasks, t.id ≠ id → t.phase.Writes (· ≠ Snapshot.key n))
  | ended {answer : Answer} (hanswer : s.answer? id = some answer)
    (hkeeps : ∀ key, answer = .key key → key = Snapshot.key n ∧ s.Keeps n x)

/-- An answer that was given stays what it is. -/
lemma Does.answer?_of_some {answer : Answer} (hdoes : s.Does a s')
    (hanswer : s.answer? id = some answer) : s'.answer? id = some answer := by
  cases a with
  | submit | call | wait =>
    cases hdoes
    exact hanswer
  | go =>
    obtain ⟨t, x, -, hmoved⟩ := hdoes.moved
    exact hmoved.answer?_of_some hanswer

/-- The request is on its way as soon as it is taken up. -/
lemma Saving.taken {t : Task} (harchives : s.Archives d host) (ht : t ∈ s.tasks)
    (hphase : t.phase = .entering .save) (hnone : s.answer? t.id = none)
    (hx : s.player.snapshot? = some x) (hdoes : s.Does (.go t.id) s')
    (hleft : s'.player.serial ≤ 32 ^ 26) : s'.Saving t.id s.player.serial x := by
  obtain ⟨u, y, hid, hmoved⟩ := hdoes.moved
  obtain rfl : u = t := List.inj_on_of_nodup_map harchives.distinct hmoved.mem ht hid
  obtain ⟨tree, htree, -⟩ := harchives.filed.store
  have hstore : s.player.store = some (.directory d tree) := htree
  have hy := hmoved.step
  rw [hphase, Player.step_save _ hstore hx] at hy
  subst hy
  have hserial : s'.player.serial = s.player.serial + 1 := by rw [hmoved.player]
  refine .waits (by omega) ((hmoved.answer?_of_goes rfl).trans hnone) (hmoved.mem_next rfl)
    fun v hv hne => ?_
  rcases hmoved.cases harchives.distinct hv with ⟨hold, -⟩ | ⟨heq, -⟩
  · cases hstoring : v.phase with
    | storing key z =>
      obtain ⟨m, hm, rfl⟩ := harchives.keyed v hold key z hstoring
      intro hkey
      have hsame := Snapshot.key_inj (by omega) (by omega) hkey
      omega
    | _ => trivial
  · exact absurd heq hne

/-- The request goes on like this until it is answered, and then the snapshot is kept. -/
lemma Saving.does (h : s.Saving id n x) (hx : x.IsPortable) (harchives : s.Archives d host)
    (ha : a.Sets Json.IsReadable) (hautosave : host.config.pacing.autosaveKey ≠ Snapshot.key n)
    (hdoes : s.Does a s') (hleft : s'.player.serial ≤ 32 ^ 26) : s'.Saving id n x := by
  cases h with
  | ended hanswer hkeeps =>
    refine .ended (hdoes.answer?_of_some hanswer) fun key hkey => ?_
    obtain ⟨hname, hkept⟩ := hkeeps key hkey
    exact ⟨hname, hkept.does harchives ha hautosave hdoes hleft⟩
  | waits hgiven hnone hmem hothers =>
    have hgiven' : n < s'.player.serial := Nat.lt_of_lt_of_le hgiven hdoes.serial_le
    have hwrites : ∀ t ∈ s'.tasks, t.id ≠ id → t.phase.Writes (· ≠ Snapshot.key n) :=
      fun t ht hne => hdoes.writes harchives.distinct hgiven hleft ht (hothers t · hne)
    cases a with
    | submit =>
      cases hdoes
      exact .waits hgiven' hnone (List.mem_append_left _ hmem) hwrites
    | call | wait =>
      cases hdoes
      exact .waits hgiven' hnone hmem hwrites
    | go =>
      obtain ⟨t, y, -, hmoved⟩ := hdoes.moved
      by_cases hid : t.id = id
      · obtain rfl := List.inj_on_of_nodup_map harchives.distinct hmoved.mem hmem hid
        obtain ⟨answer, hends, hdocument⟩ :=
          s.player.step_storing id (Snapshot.key n) harchives.filed hx
        have hstep := hmoved.step
        dsimp only at hstep
        rw [hstep] at hends hdocument
        refine .ended (hmoved.answer?_of_ends hends hnone) fun key hkey => ?_
        obtain ⟨hname, hfound⟩ := hdocument key hkey
        refine ⟨hname, hgiven', fun u hu => ?_, by rw [hmoved.player]; exact hfound⟩
        rcases hmoved.cases harchives.distinct hu with ⟨-, hne⟩ | ⟨-, hgoes⟩
        · exact hwrites u hu hne
        · cases hends.symm.trans hgoes
      · exact .waits hgiven' ((hmoved.answer?_of_ne hid).trans hnone)
          (hmoved.mem_of_ne hmem fun heq => hid (heq ▸ rfl)) hwrites

lemma Saving.evolves (h : s.Saving id n x) (hx : x.IsPortable) (harchives : s.Archives d host)
    (hautosave : host.config.pacing.autosaveKey ≠ Snapshot.key n)
    (hs : s.Evolves (Action.Sets Json.IsReadable) s') (hleft : s'.player.serial ≤ 32 ^ 26) :
    s'.Saving id n x := by
  induction hs with
  | refl => exact h
  | tail hs hmay ih =>
    obtain ⟨a, ha, hdoes⟩ := hmay
    exact (ih (Nat.le_trans hdoes.serial_le hleft)).does hx (harchives.evolves hs) ha
      hautosave hdoes
      hleft

end Session

end Recital
