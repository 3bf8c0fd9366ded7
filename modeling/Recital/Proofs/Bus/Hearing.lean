import Recital.Bus
import Mathlib

/-!
# What the receivers of a bus hear

Anyone may subscribe to a bus, publish, look what has come, leave and close the bus, in any order
(`Bus.Deed`).  What a receiver is owed can be told from the deeds alone: the events of its kind that
are published after it has subscribed and before the bus is closed (`Bus.owed`).

A receiver takes what it is owed from the front.  It hears an event or learns how many events it has
missed, and what it has heard, what it has missed and what is left make up what it is owed
(`Bus.Follows`).  Once the bus is closed nothing is added to that, so a receiver comes to its end
and finds nothing but the end from then on (`Bus.Listener.Drains`).
-/

namespace Recital.Bus

/-! ### Deeds -/

/-- Something that is done with a bus.  Receivers are numbered as they subscribe. -/
inductive Deed
  | subscribe (kind : Option Event.Kind)
  | publish (e : Event)
  | receive (n : Nat)
  | drop (n : Nat)
  | close

/-- A receiver and what it has found, the latest last. -/
structure Listener where
  receiver : Receiver
  found : List Delivery := []
  /-- The receiver has not been dropped. -/
  here : Bool := true

/-- A bus and all who have subscribed to it. -/
structure Hall where
  bus : Bus
  listeners : List Listener := []

/-- A receiver looks what has come. -/
def Listener.receive (b : Bus) (l : Listener) : Listener :=
  if l.here then
    { l with receiver := (b.receive l.receiver).2, found := l.found ++ [(b.receive l.receiver).1] }
  else l

/-- What comes of a deed. -/
def Hall.step (h : Hall) : Deed → Hall
  | .subscribe kind =>
    { bus := (h.bus.subscribe kind).2
      listeners := h.listeners ++ [⟨(h.bus.subscribe kind).1, [], true⟩] }
  | .publish e => { h with bus := h.bus.publish e }
  | .receive n => { h with listeners := h.listeners.modify n (·.receive h.bus) }
  | .drop n => { h with listeners := h.listeners.modify n ({ · with here := false }) }
  | .close => { h with bus := h.bus.close }

/-- What comes of many deeds. -/
def Hall.run (h : Hall) (deeds : List Deed) : Hall := deeds.foldl Hall.step h

namespace Deed

/-- The kinds that were subscribed to. -/
def kinds (deeds : List Deed) : List (Option Event.Kind) :=
  deeds.filterMap fun
    | subscribe kind => some kind
    | _ => none

/-- The events that are published before the bus is closed. -/
def published : List Deed → List Event
  | [] => []
  | publish e :: deeds => e :: published deeds
  | close :: _ => []
  | subscribe _ :: deeds | receive _ :: deeds | drop _ :: deeds => published deeds

/-- How many events are published before the receiver with the given number subscribes. -/
def begun : Nat → List Deed → Nat
  | _, [] => 0
  | n, publish _ :: deeds => begun n deeds + 1
  | 0, subscribe _ :: _ => 0
  | n + 1, subscribe _ :: deeds => begun n deeds
  | n, receive _ :: deeds | n, drop _ :: deeds | n, close :: deeds => begun n deeds

/-- The receiver with the given number looks what has come. -/
def isReceive (n : Nat) : Deed → Bool
  | receive m => m == n
  | _ => false

end Deed

/-- What the receiver with the given number is owed if it takes the kind: the events of the kind
that are published after it has subscribed and before the bus is closed. -/
def owed (kind : Option Event.Kind) (n : Nat) (deeds : List Deed) : List Event :=
  ((Deed.published deeds).drop (Deed.begun n deeds)).filter (takes kind)

/-- How many events are left for a receiver. -/
def pending (b : Bus) (r : Receiver) : Nat := (b.stream r.kind).size - r.position

/-- The events that were found. -/
def heard (found : List Delivery) : List Event :=
  found.filterMap fun
    | .event e => some e
    | _ => none

/-- How many events were reported as missed. -/
def missed (found : List Delivery) : Nat :=
  (found.map fun
    | .lagged missed => missed
    | _ => 0).sum

/-! ### What deeds add -/

namespace Deed

variable {deeds : List Deed} {d : Deed} {n : Nat}

/-- The event that a deed publishes. -/
def event? : Deed → Option Event
  | publish e => some e
  | _ => none

lemma published_append_of_close (h : close ∈ deeds) (more : List Deed) :
    published (deeds ++ more) = published deeds := by
  induction deeds with
  | nil => cases h
  | cons c deeds ih =>
    cases c with
    | close => rfl
    | publish e => exact congrArg (e :: ·) (ih (by simpa using h))
    | subscribe | receive | drop => exact ih (by simpa using h)

lemma published_append_of_open (h : close ∉ deeds) :
    published (deeds ++ [d]) = published deeds ++ d.event?.toList := by
  induction deeds with
  | nil => cases d <;> rfl
  | cons c deeds ih =>
    have hrest : close ∉ deeds := fun hmem => h (.tail _ hmem)
    cases c with
    | close => exact absurd List.mem_cons_self h
    | publish e => exact congrArg (e :: ·) (ih hrest)
    | subscribe | receive | drop => exact ih hrest

/-- A deed that publishes nothing leaves what was published as it is. -/
lemma published_append_of_none (h : d.event? = none) :
    published (deeds ++ [d]) = published deeds := by
  by_cases hclose : close ∈ deeds
  · exact published_append_of_close hclose _
  · rw [published_append_of_open hclose, h]
    exact List.append_nil _

/-- What is done later does not matter for who has subscribed. -/
lemma begun_append (hn : n < (kinds deeds).length) (more : List Deed) :
    begun n (deeds ++ more) = begun n deeds := by
  induction deeds generalizing n with
  | nil => cases hn
  | cons c deeds ih =>
    cases c with
    | publish e => exact congrArg (· + 1) (ih hn)
    | subscribe kind =>
      cases n with
      | zero => rfl
      | succ n => exact ih (Nat.lt_of_succ_lt_succ hn)
    | receive | drop | close => exact ih hn

/-- While the bus is open, whoever has subscribed did so among what was published. -/
lemma begun_le_length_published (hn : n < (kinds deeds).length) (h : close ∉ deeds) :
    begun n deeds ≤ (published deeds).length := by
  induction deeds generalizing n with
  | nil => cases hn
  | cons c deeds ih =>
    have hrest : close ∉ deeds := fun hmem => h (.tail _ hmem)
    cases c with
    | close => exact absurd List.mem_cons_self h
    | publish e => exact Nat.succ_le_succ (ih hn hrest)
    | subscribe kind =>
      cases n with
      | zero => exact Nat.zero_le _
      | succ n => exact ih (Nat.lt_of_succ_lt_succ hn) hrest
    | receive | drop => exact ih hn hrest

/-- Who subscribes now is owed nothing yet. -/
lemma length_published_le_begun (kind : Option Event.Kind) :
    (published deeds).length ≤ begun (kinds deeds).length (deeds ++ [subscribe kind]) := by
  induction deeds with
  | nil => exact Nat.zero_le _
  | cons c deeds ih =>
    cases c with
    | publish e => exact Nat.succ_le_succ ih
    | close => exact Nat.zero_le _
    | subscribe | receive | drop => exact ih

end Deed

variable {b : Bus} {kind : Option Event.Kind} {deeds : List Deed} {d : Deed} {n : Nat}

/-- Nothing is owed any more once the bus is closed. -/
lemma owed_append_of_close (hn : n < (Deed.kinds deeds).length) (h : .close ∈ deeds)
    (more : List Deed) : owed kind n (deeds ++ more) = owed kind n deeds := by
  unfold owed
  rw [Deed.published_append_of_close h, Deed.begun_append hn]

/-- While it is open, an event that is published is owed to everyone who takes its kind. -/
lemma owed_append_of_open (hn : n < (Deed.kinds deeds).length) (h : .close ∉ deeds) :
    owed kind n (deeds ++ [d]) = owed kind n deeds ++ d.event?.toList.filter (takes kind) := by
  unfold owed
  rw [Deed.published_append_of_open h, Deed.begun_append hn,
    List.drop_append_of_le_length (Deed.begun_le_length_published hn h), List.filter_append]

/-- Who subscribes is owed nothing yet. -/
lemma owed_subscribe (kind kind' : Option Event.Kind) (deeds : List Deed) :
    owed kind (Deed.kinds deeds).length (deeds ++ [.subscribe kind']) = [] := by
  unfold owed
  rw [Deed.published_append_of_none rfl,
    List.drop_eq_nil_of_le (Deed.length_published_le_begun kind'), List.filter_nil]

/-! ### The streams of a bus -/

lemma le_powerAbove {capacity fuel p : Nat} (h : capacity ≤ 2 ^ fuel * p) :
    capacity ≤ powerAbove capacity fuel p := by
  induction fuel generalizing p with
  | zero => simpa [powerAbove] using h
  | succ fuel ih =>
    unfold powerAbove
    split
    · next hle => exact hle
    · rw [Nat.pow_succ, Nat.mul_assoc] at h
      exact ih h

/-- A bus holds at least as many events as it was asked to. -/
lemma le_capacity_ofCapacity {capacity : Nat} (h : capacity ≤ 2 ^ 64) :
    capacity ≤ (ofCapacity capacity).capacity :=
  le_powerAbove (by rw [Nat.mul_one]; exact h)

lemma takes_none (e : Event) : takes none e = true := rfl

/-- The events of a kind, in the order in which they were published. -/
lemma toList_stream (b : Bus) (kind : Option Event.Kind) :
    (b.stream kind).toList = b.log.toList.filter (takes kind) := by
  cases kind with
  | none => exact (List.filter_eq_self.mpr fun e _ => takes_none e).symm
  | some k => exact Array.toList_filter

lemma size_stream (b : Bus) (kind : Option Event.Kind) :
    (b.stream kind).size = (b.log.toList.filter (takes kind)).length := by
  rw [← toList_stream, Array.length_toList]

lemma publish_eq (b : Bus) (e : Event) : ∃ log, b.publish e = { b with log } ∧
    log.toList = if b.closed then b.log.toList else b.log.toList ++ [e] := by
  unfold publish
  split
  · exact ⟨b.log, rfl, rfl⟩
  · exact ⟨b.log.push e, rfl, Array.toList_push⟩

lemma subscribe_eq (b : Bus) (kind : Option Event.Kind) :
    ∃ kinds, b.subscribe kind = (⟨kind, (b.stream kind).size⟩, { b with kinds }) := by
  unfold subscribe
  cases kind with
  | none => exact ⟨b.kinds, rfl⟩
  | some k =>
    dsimp only
    split
    · exact ⟨b.kinds, rfl⟩
    · exact ⟨_, rfl⟩

/-- A receiver misses what is no longer held, or takes the next event, or there is none. -/
inductive Receives (b : Bus) (r : Receiver) : Delivery × Receiver → Prop
  | lagged {missed : Nat} (hpos : 0 < missed) (hheld : b.pending r = missed + b.capacity) :
    Receives b r (.lagged missed, { r with position := r.position + missed })
  | event {e : Event} (he : (b.log.toList.filter (takes r.kind))[r.position]? = some e) :
    Receives b r (.event e, { r with position := r.position + 1 })
  | none (hdone : b.pending r = 0) : Receives b r (if b.closed then .closed else .empty, r)

lemma receives (b : Bus) (r : Receiver) : b.Receives r (b.receive r) := by
  have hpending : b.pending r = (b.stream r.kind).size - r.position := rfl
  unfold receive
  dsimp only
  split
  · next hlt =>
    have hposition : (b.stream r.kind).size - b.capacity =
        r.position + ((b.stream r.kind).size - b.capacity - r.position) := by omega
    rw [show ({ r with position := (b.stream r.kind).size - b.capacity } : Receiver) =
      { r with position := r.position + ((b.stream r.kind).size - b.capacity - r.position) } by
        rw [← hposition]]
    exact .lagged (by omega) (by omega)
  · cases he : (b.stream r.kind)[r.position]? with
    | some e =>
      refine .event ?_
      rw [← toList_stream, Array.getElem?_toList]
      exact he
    | none =>
      refine .none ?_
      have hle : (b.stream r.kind).size ≤ r.position := Array.getElem?_eq_none_iff.mp he
      omega

/-! ### What a receiver is owed and what it has found -/

variable {r : Receiver} {found : List Delivery} {all due : List Event}

@[simp] lemma heard_append (found more : List Delivery) :
    heard (found ++ more) = heard found ++ heard more :=
  List.filterMap_append

@[simp] lemma missed_append (found more : List Delivery) :
    missed (found ++ more) = missed found + missed more := by
  simp [missed]

/-- A receiver stands among all events of its kind, of which the last ones are owed to it.  What it
has heard and what it has missed are the events that it has passed, and it has heard them in their
order. -/
structure Follows (all due : List Event) (r : Receiver) (found : List Delivery) : Prop where
  suffix : due <:+ all
  position_le : r.position ≤ all.length
  account : (heard found).length + missed found + (all.length - r.position) = due.length
  heard : (heard found).Sublist (due.take ((heard found).length + missed found))

namespace Follows

lemma sublist (h : Follows all due r found) : (Bus.heard found).Sublist due :=
  h.heard.trans (List.take_sublist _ _)

/-- Who has missed nothing has heard all that comes before what is left. -/
lemma heard_eq (h : Follows all due r found) (hnone : missed found = 0) :
    Bus.heard found = due.take (Bus.heard found).length := by
  have hheard := h.heard
  have haccount := h.account
  rw [hnone, Nat.add_zero] at hheard
  refine hheard.eq_of_length ?_
  rw [List.length_take]
  omega

/-- More events of the kind are owed. -/
lemma append (h : Follows all due r found) (news : List Event) :
    Follows (all ++ news) (due ++ news) r found := by
  obtain ⟨before, hbefore⟩ := h.suffix
  have hle := h.position_le
  have haccount := h.account
  refine ⟨⟨before, by rw [← List.append_assoc, hbefore]⟩, ?_, ?_, ?_⟩
  · rw [List.length_append]
    omega
  · rw [List.length_append, List.length_append]
    omega
  · rw [List.take_append_of_le_length (by omega)]
    exact h.heard

/-- The next event of the kind is the next one that is owed. -/
lemma getElem?_due (h : Follows all due r found) {e : Event} (he : all[r.position]? = some e) :
    due[(Bus.heard found).length + missed found]? = some e := by
  obtain ⟨before, rfl⟩ := h.suffix
  have hle := h.position_le
  have haccount := h.account
  have hlt := (List.getElem?_eq_some_iff.mp he).1
  rw [List.length_append] at hle haccount hlt
  have hindex : (Bus.heard found).length + missed found = r.position - before.length := by omega
  rw [List.getElem?_append_right (by omega)] at he
  rw [hindex]
  exact he

/-- What is found comes from the front of what is owed. -/
lemma find {d : Delivery} {r' : Receiver} (hx : b.Receives r (d, r'))
    (h : Follows (b.log.toList.filter (takes r.kind)) due r found) :
    Follows (b.log.toList.filter (takes r.kind)) due r' (found ++ [d]) := by
  have hle := h.position_le
  have haccount := h.account
  have hsize := b.size_stream r.kind
  cases hx with
  | @lagged count hpos hheld =>
    have hpending : b.pending r = (b.stream r.kind).size - r.position := rfl
    have hnone : Bus.heard [.lagged count] = [] := rfl
    have hcount : missed [.lagged count] = count := Nat.add_zero count
    have hposition : r.position + count ≤ (b.log.toList.filter (takes r.kind)).length := by omega
    -- What is missed is passed without being heard, so only the bound of what was heard moves.
    refine ⟨h.suffix, hposition, ?_, ?_⟩
    · rw [heard_append, missed_append, hnone, hcount, List.append_nil]
      dsimp only
      omega
    · rw [heard_append, missed_append, hnone, hcount, List.append_nil]
      exact h.heard.trans (List.take_prefix_take_left (by omega)).sublist
  | @event e he =>
    have hnext := h.getElem?_due he
    have hlt := (List.getElem?_eq_some_iff.mp he).1
    have hone : Bus.heard [.event e] = [e] := rfl
    have hnone : missed [.event e] = 0 := rfl
    refine ⟨h.suffix, hlt, ?_, ?_⟩
    · rw [heard_append, missed_append, hone, hnone, List.length_append, List.length_singleton]
      dsimp only
      omega
    · rw [heard_append, missed_append, hone, hnone, List.length_append, List.length_singleton,
        Nat.add_right_comm, List.take_add_one, Nat.add_zero (missed found), hnext]
      exact h.heard.append (.refl [e])
  | none hdone =>
    have hnone : Bus.heard [if b.closed then .closed else .empty] = [] ∧
        missed [if b.closed then .closed else .empty] = 0 := by
      split <;> exact ⟨rfl, rfl⟩
    refine ⟨h.suffix, hle, ?_, ?_⟩
    · rw [heard_append, missed_append, hnone.1, hnone.2, List.append_nil]
      exact haccount
    · rw [heard_append, missed_append, hnone.1, hnone.2, List.append_nil]
      exact h.heard

end Follows

/-! ### A hall -/

/-- The receiver takes the same kind, and follows what is owed to it as before. -/
structure Listener.Goes (b : Bus) (l l' : Listener) : Prop where
  kind : l'.receiver.kind = l.receiver.kind
  follows : ∀ due, Follows (b.log.toList.filter (takes l.receiver.kind)) due l.receiver l.found →
    Follows (b.log.toList.filter (takes l.receiver.kind)) due l'.receiver l'.found

lemma Receives.kind_eq {d : Delivery} {r' : Receiver} (h : b.Receives r (d, r')) :
    r'.kind = r.kind := by
  cases h <;> rfl

/-- What comes of a deed for the receiver with the given number. -/
def Listener.after (b : Bus) (n : Nat) (l : Listener) : Deed → Listener
  | .receive m => if m = n then l.receive b else l
  | .drop m => if m = n then { l with here := false } else l
  | _ => l

lemma Listener.Goes.refl (b : Bus) (l : Listener) : Goes b l l := ⟨rfl, fun _ h => h⟩

lemma Listener.goes_receive (b : Bus) (l : Listener) : Goes b l (l.receive b) := by
  unfold receive
  split
  · exact ⟨(b.receives l.receiver).kind_eq, fun _ => Follows.find (b.receives l.receiver)⟩
  · exact .refl b l

namespace Hall

variable {hall : Hall} {l : Listener}

lemma run_append (hall : Hall) (deeds more : List Deed) :
    hall.run (deeds ++ more) = (hall.run deeds).run more :=
  List.foldl_append

/-- Whatever is done, a receiver goes on. -/
lemma goes_step (hall : Hall) (n : Nat) (l : Listener) (d : Deed) :
    Listener.Goes (hall.step d).bus l (l.after hall.bus n d) := by
  cases d with
  | subscribe | publish | close => exact .refl _ l
  | drop m =>
    change Listener.Goes _ l (if m = n then { l with here := false } else l)
    split
    · exact ⟨rfl, fun _ h => h⟩
    · exact .refl _ l
  | receive m =>
    change Listener.Goes _ l (if m = n then l.receive hall.bus else l)
    split
    · exact Listener.goes_receive hall.bus l
    · exact .refl _ l

lemma getElem?_step (hl : hall.listeners[n]? = some l) (d : Deed) :
    (hall.step d).listeners[n]? = some (l.after hall.bus n d) := by
  have hmodify : ∀ (m : Nat) (f : Listener → Listener),
      (hall.listeners.modify m f)[n]? = some (if m = n then f l else l) := fun m f => by
    rw [List.getElem?_modify, hl]
    split <;> rfl
  cases d with
  | subscribe kind =>
    exact (List.getElem?_append_left (List.getElem?_eq_some_iff.mp hl).1).trans hl
  | publish | close => exact hl
  | receive m | drop m => exact hmodify m _

/-- Everything that was published is in the log, and each receiver follows what it is owed. -/
structure Accounts (deeds : List Deed) (hall : Hall) : Prop where
  log : hall.bus.log.toList = Deed.published deeds
  closed : hall.bus.closed = true ↔ .close ∈ deeds
  kinds : hall.listeners.map (·.receiver.kind) = Deed.kinds deeds
  follows : ∀ n l, hall.listeners[n]? = some l →
    Follows (hall.bus.log.toList.filter (takes l.receiver.kind)) (owed l.receiver.kind n deeds)
      l.receiver l.found

namespace Accounts

lemma created (capacity : Nat) : Accounts [] { bus := ofCapacity capacity } where
  log := rfl
  closed := by simp [ofCapacity]
  kinds := rfl
  follows := fun _ _ hl => by cases hl

lemma lt_length (h : Accounts deeds hall) (hl : hall.listeners[n]? = some l) :
    n < (Deed.kinds deeds).length := by
  rw [← h.kinds, List.length_map]
  exact (List.getElem?_eq_some_iff.mp hl).1

/-- A receiver that does nothing still follows what it is owed. -/
lemma follows_later (h : Accounts deeds hall) (hl : hall.listeners[n]? = some l) (d : Deed) :
    Follows ((Deed.published (deeds ++ [d])).filter (takes l.receiver.kind))
      (owed l.receiver.kind n (deeds ++ [d])) l.receiver l.found := by
  have hfollows := h.follows n l hl
  rw [h.log] at hfollows
  by_cases hclose : .close ∈ deeds
  · rw [owed_append_of_close (h.lt_length hl) hclose, Deed.published_append_of_close hclose]
    exact hfollows
  · rw [owed_append_of_open (h.lt_length hl) hclose, Deed.published_append_of_open hclose,
      List.filter_append]
    exact hfollows.append _

/-- A deed is accounted for if nobody subscribes. -/
lemma of_length (h : Accounts deeds hall)
    (hlog : (hall.step d).bus.log.toList = Deed.published (deeds ++ [d]))
    (hclosed : (hall.step d).bus.closed = true ↔ .close ∈ deeds ++ [d])
    (hkinds : Deed.kinds (deeds ++ [d]) = Deed.kinds deeds)
    (hlength : (hall.step d).listeners.length = hall.listeners.length) :
    Accounts (deeds ++ [d]) (hall.step d) where
  log := hlog
  closed := hclosed
  kinds := by
    rw [hkinds, ← h.kinds]
    refine List.ext_getElem? fun n => ?_
    rw [List.getElem?_map, List.getElem?_map]
    cases hl : hall.listeners[n]? with
    | some l =>
      rw [getElem?_step hl]
      exact congrArg some (goes_step hall n l d).kind
    | none =>
      rw [List.getElem?_eq_none_iff, ← hlength, ← List.getElem?_eq_none_iff] at hl
      rw [hl]
  follows n l' hl' := by
    have hlt := (List.getElem?_eq_some_iff.mp hl').1
    rw [hlength] at hlt
    have hl : hall.listeners[n]? = some hall.listeners[n] := List.getElem?_eq_getElem hlt
    obtain rfl := Option.some.inj ((getElem?_step hl d).symm.trans hl')
    have hgoes := goes_step hall n hall.listeners[n] d
    have hlater := h.follows_later hl d
    rw [← hlog] at hlater
    rw [hgoes.kind]
    exact hgoes.follows _ hlater

/-- A subscriber is owed nothing yet, and stands where the events that it will be owed begin. -/
lemma subscribe (h : Accounts deeds hall) (kind : Option Event.Kind) :
    Accounts (deeds ++ [.subscribe kind]) (hall.step (.subscribe kind)) := by
  obtain ⟨kinds, hsubscribe⟩ := hall.bus.subscribe_eq kind
  have hstep : hall.step (.subscribe kind) = ⟨{ hall.bus with kinds },
      hall.listeners ++ [⟨⟨kind, (hall.bus.stream kind).size⟩, [], true⟩]⟩ := by
    rw [Hall.step, hsubscribe]
  have hlength : (Deed.kinds deeds).length = hall.listeners.length := by
    rw [← h.kinds, List.length_map]
  rw [hstep]
  refine ⟨?_, ?_, ?_, fun n l hl => ?_⟩
  · rw [Deed.published_append_of_none rfl]
    exact h.log
  · refine h.closed.trans ?_
    simp
  · have hkinds : Deed.kinds (deeds ++ [.subscribe kind]) = Deed.kinds deeds ++ [kind] :=
      List.filterMap_append
    rw [hkinds, ← h.kinds, List.map_append, List.map_singleton]
  · rcases Nat.lt_or_ge n hall.listeners.length with hlt | hge
    · rw [List.getElem?_append_left hlt] at hl
      have hfollows := h.follows_later hl (.subscribe kind)
      rw [Deed.published_append_of_none rfl, ← h.log] at hfollows
      exact hfollows
    · rw [List.getElem?_append_right hge] at hl
      obtain ⟨hzero, rfl⟩ := List.getElem?_eq_some_iff.mp hl
      rw [List.length_singleton] at hzero
      obtain rfl : n = (Deed.kinds deeds).length := by omega
      simp only [List.getElem_singleton]
      rw [owed_subscribe]
      exact ⟨List.nil_suffix, Nat.le_of_eq (size_stream _ _), by simp [heard, missed, size_stream],
        List.Sublist.refl []⟩

/-- Whatever is done is accounted for. -/
lemma step (h : Accounts deeds hall) (d : Deed) : Accounts (deeds ++ [d]) (hall.step d) := by
  have hkinds : Deed.kinds (deeds ++ [d]) = Deed.kinds deeds ++ Deed.kinds [d] :=
    List.filterMap_append
  have hnone : Deed.kinds deeds ++ [] = Deed.kinds deeds := List.append_nil _
  cases d with
  | subscribe kind => exact h.subscribe kind
  | publish e =>
    obtain ⟨log, hpublish, hlog⟩ := hall.bus.publish_eq e
    have hstep : hall.step (.publish e) = ⟨{ hall.bus with log }, hall.listeners⟩ := by
      rw [Hall.step, hpublish]
    refine h.of_length ?_ ?_ (hkinds.trans hnone) rfl
    · rw [hstep]
      refine hlog.trans ?_
      by_cases hclose : .close ∈ deeds
      · rw [if_pos (h.closed.mpr hclose), h.log, Deed.published_append_of_close hclose]
      · rw [if_neg fun hclosed => hclose (h.closed.mp hclosed), h.log,
          Deed.published_append_of_open hclose]
        rfl
    · rw [hstep]
      exact h.closed.trans (by simp)
  | receive | drop =>
    exact h.of_length (h.log.trans (Deed.published_append_of_none rfl).symm)
      (h.closed.trans (by simp))
      (hkinds.trans hnone) (List.length_modify _ _ _)
  | close =>
    exact h.of_length (h.log.trans (Deed.published_append_of_none rfl).symm)
      (iff_of_true rfl (List.mem_append_right _ List.mem_cons_self)) (hkinds.trans hnone) rfl

lemma run (capacity : Nat) (deeds : List Deed) :
    Accounts deeds (Hall.run { bus := ofCapacity capacity } deeds) := by
  induction deeds using List.reverseRecOn with
  | nil => exact created capacity
  | append_singleton deeds d ih =>
    rw [run_append]
    exact ih.step d

end Accounts

end Hall

/-! ### After the end -/

lemma pending_eq_of_log {c : Bus} (h : c.log = b.log) (r : Receiver) :
    c.pending r = b.pending r := by
  rw [pending, pending, size_stream, size_stream, h]

/-- Whoever looks takes something of what is left, or nothing is left. -/
lemma Receives.takes_or_ends {d : Delivery} {r' : Receiver} (h : b.Receives r (d, r')) :
    b.pending r' < b.pending r ∧ d ≠ .empty ∧ d ≠ .closed ∨
      b.pending r = 0 ∧ r' = r ∧ d = if b.closed then .closed else .empty := by
  cases h with
  | @lagged missed hpos hheld =>
    refine .inl ⟨?_, Delivery.noConfusion, Delivery.noConfusion⟩
    unfold pending at hheld ⊢
    dsimp only
    omega
  | event he =>
    refine .inl ⟨?_, Delivery.noConfusion, Delivery.noConfusion⟩
    have hlt := (List.getElem?_eq_some_iff.mp he).1
    rw [← size_stream] at hlt
    unfold pending
    dsimp only
    omega
  | none hdone => exact .inr ⟨hdone, rfl, rfl⟩

/-- The receiver has taken something of what was left, and has then found the end a number of
times. -/
structure Listener.Drains (b : Bus) (l l' : Listener) (taken : List Delivery) (ends : Nat) :
    Prop where
  found : l'.found = l.found ++ (taken ++ List.replicate ends .closed)
  something : ∀ d ∈ taken, d ≠ .empty ∧ d ≠ .closed
  left : taken.length + b.pending l'.receiver ≤ b.pending l.receiver
  ended : 0 < ends → b.pending l'.receiver = 0

namespace Listener

variable {l l' : Listener} {taken : List Delivery} {ends : Nat}

/-- Every look at a bus that is closed takes something of what is left, or finds the end. -/
lemma Drains.receive {c : Bus} (h : Drains b l l' taken ends) (hlog : c.log = b.log)
    (hclosed : c.closed = true) (hhere : l'.here = true) :
    ∃ taken' ends', Drains b l (l'.receive c) taken' ends' ∧
      taken'.length + ends' = taken.length + ends + 1 := by
  have hleft := h.left
  obtain ⟨d, r', hx⟩ : ∃ d r', c.receive l'.receiver = (d, r') := ⟨_, _, rfl⟩
  have hreceive : l'.receive c = ⟨r', l'.found ++ [d], l'.here⟩ := by
    rw [Listener.receive, if_pos hhere, hx]
  have hreceives := c.receives l'.receiver
  rw [hx] at hreceives
  rw [hreceive]
  rcases hreceives.takes_or_ends with ⟨hless, hsomething⟩ | ⟨hdone, hsame, hend⟩
  · rw [pending_eq_of_log hlog, pending_eq_of_log hlog] at hless
    -- Something was left, so the end has not been found yet.
    obtain rfl : ends = 0 := by
      by_contra hne
      have hnone := h.ended (Nat.pos_of_ne_zero hne)
      omega
    refine ⟨taken ++ [d], 0, ⟨?_, fun d hd => ?_, ?_, fun hpos => ?_⟩, ?_⟩
    · rw [h.found]
      simp
    · rcases List.mem_append.mp hd with hd | hd
      · exact h.something d hd
      · rw [List.mem_singleton.mp hd]
        exact hsomething
    · rw [List.length_append, List.length_singleton]
      dsimp only
      omega
    · exact absurd hpos (Nat.lt_irrefl 0)
    · simp
  · rw [pending_eq_of_log hlog] at hdone
    rw [hsame, hend, if_pos hclosed]
    refine ⟨taken, ends + 1, ⟨?_, h.something, hleft, fun _ => hdone⟩, ?_⟩
    · rw [h.found, List.replicate_succ']
      simp
    · exact (Nat.add_assoc _ _ _).symm

/-- Whatever else is done, a receiver that is not dropped goes on like this. -/
lemma Drains.after {c : Bus} (h : Drains b l l' taken ends) (hlog : c.log = b.log)
    (hclosed : c.closed = true) (n : Nat) (d : Deed) :
    ∃ taken' ends', Drains b l (l'.after c n d) taken' ends' ∧
      (l'.here = true → d ≠ .drop n → (l'.after c n d).here = true ∧
        taken'.length + ends' = taken.length + ends + if Deed.isReceive n d then 1 else 0) := by
  have hsame : Deed.isReceive n d = false → l'.after c n d = l' →
      ∃ taken' ends', Drains b l (l'.after c n d) taken' ends' ∧
        (l'.here = true → d ≠ .drop n → (l'.after c n d).here = true ∧
          taken'.length + ends' = taken.length + ends + if Deed.isReceive n d then 1 else 0) := by
    intro hother heq
    rw [heq, hother]
    exact ⟨taken, ends, h, fun hhere _ => ⟨hhere, rfl⟩⟩
  cases d with
  | subscribe | publish | close => exact hsame rfl rfl
  | drop m =>
    by_cases hm : m = n
    · subst hm
      refine ⟨taken, ends, ?_, fun _ hne => absurd rfl hne⟩
      have hafter : l'.after c m (.drop m) = { l' with here := false } := if_pos rfl
      rw [hafter]
      exact ⟨h.found, h.something, h.left, h.ended⟩
    · exact hsame rfl (if_neg hm)
  | receive m =>
    by_cases hm : m = n
    · subst hm
      have hafter : l'.after c m (.receive m) = l'.receive c := if_pos rfl
      have hone : Deed.isReceive m (.receive m) = true := beq_self_eq_true m
      rw [hafter, hone]
      cases hhere : l'.here with
      | true =>
        obtain ⟨taken', ends', hdrains, hlength⟩ := h.receive hlog hclosed hhere
        refine ⟨taken', ends', hdrains, fun _ _ => ⟨?_, hlength⟩⟩
        exact (congrArg Listener.here (if_pos hhere)).trans hhere
      | false =>
        have hgone : l'.receive c = l' := if_neg (by rw [hhere]; exact Bool.false_ne_true)
        rw [hgone]
        exact ⟨taken, ends, h, fun htrue => by cases htrue⟩
    · exact hsame (beq_eq_false_iff_ne.mpr hm) (if_neg hm)

end Listener

namespace Hall

variable {hall : Hall} {l : Listener}

/-- A bus that is closed stays as it is. -/
lemma bus_step_of_closed (h : hall.bus.closed = true) (d : Deed) :
    (hall.step d).bus.log = hall.bus.log ∧ (hall.step d).bus.closed = true := by
  cases d with
  | subscribe kind =>
    obtain ⟨kinds, hsubscribe⟩ := hall.bus.subscribe_eq kind
    have hbus : (hall.step (.subscribe kind)).bus = { hall.bus with kinds } :=
      congrArg Prod.snd hsubscribe
    rw [hbus]
    exact ⟨rfl, h⟩
  | publish e =>
    have hsame : hall.bus.publish e = hall.bus := if_pos h
    exact ⟨congrArg Bus.log hsame, (congrArg Bus.closed hsame).trans h⟩
  | receive | drop => exact ⟨rfl, h⟩
  | close => exact ⟨rfl, rfl⟩

lemma bus_run_of_closed (h : hall.bus.closed = true) (more : List Deed) :
    (hall.run more).bus.log = hall.bus.log ∧ (hall.run more).bus.closed = true := by
  induction more using List.reverseRecOn with
  | nil => exact ⟨rfl, h⟩
  | append_singleton more d ih =>
    rw [run_append]
    obtain ⟨hlog, hclosed⟩ := bus_step_of_closed ih.2 d
    exact ⟨hlog.trans ih.1, hclosed⟩

/-- Once the bus is closed, a receiver takes what is left and then finds nothing but the end. -/
lemma drains_run (h : hall.bus.closed = true) (hl : hall.listeners[n]? = some l)
    (more : List Deed) :
    ∃ l' taken ends, (hall.run more).listeners[n]? = some l' ∧ l.Drains hall.bus l' taken ends ∧
      (l.here = true → .drop n ∉ more →
        l'.here = true ∧ taken.length + ends = more.countP (Deed.isReceive n)) := by
  induction more using List.reverseRecOn with
  | nil =>
    refine ⟨l, [], 0, hl, ⟨by simp, fun _ hd => absurd hd List.not_mem_nil, ?_, fun h => ?_⟩,
      fun hhere _ => ⟨hhere, rfl⟩⟩
    · exact Nat.le_of_eq (Nat.zero_add _)
    · exact absurd h (Nat.lt_irrefl 0)
  | append_singleton more d ih =>
    obtain ⟨l', taken, ends, hl', hdrains, hcount⟩ := ih
    obtain ⟨hlog, hclosed⟩ := bus_run_of_closed h more
    obtain ⟨taken', ends', hdrains', hcount'⟩ := hdrains.after hlog hclosed n d
    rw [run_append]
    refine ⟨_, taken', ends', getElem?_step hl' d, hdrains', fun hhere hdrop => ?_⟩
    obtain ⟨hhere', hsum⟩ := hcount hhere fun hmem => hdrop (List.mem_append_left _ hmem)
    obtain ⟨hhere'', hsum'⟩ := hcount' hhere' fun heq =>
      hdrop (List.mem_append_right _ (heq ▸ List.mem_singleton_self d))
    rw [List.countP_append, List.countP_singleton, ← hsum]
    exact ⟨hhere'', hsum'⟩

lemma capacity_step (hall : Hall) (d : Deed) : (hall.step d).bus.capacity = hall.bus.capacity := by
  cases d with
  | subscribe kind =>
    obtain ⟨kinds, hsubscribe⟩ := hall.bus.subscribe_eq kind
    exact congrArg (·.2.capacity) hsubscribe
  | publish e =>
    obtain ⟨log, hpublish, -⟩ := hall.bus.publish_eq e
    have hcapacity : (hall.bus.publish e).capacity = hall.bus.capacity := by rw [hpublish]
    exact hcapacity
  | receive | drop | close => rfl

lemma capacity_run (hall : Hall) (deeds : List Deed) :
    (hall.run deeds).bus.capacity = hall.bus.capacity := by
  induction deeds using List.reverseRecOn with
  | nil => rfl
  | append_singleton deeds d ih =>
    rw [run_append, ← ih]
    exact capacity_step _ d

/-- What a receiver is owed that takes one kind is owed, among other events, to one that has
subscribed to all of them at the same point. -/
lemma owed_some {m n : Nat} (h : Deed.begun m deeds = Deed.begun n deeds) (k : Event.Kind) :
    owed (some k) m deeds = (owed none n deeds).filter (takes (some k)) := by
  have hall : owed none n deeds = (Deed.published deeds).drop (Deed.begun n deeds) :=
    List.filter_eq_self.mpr fun e _ => takes_none e
  rw [hall, owed, h]

end Hall

/-- No event is lost unaccounted or comes out of its order.  Whatever is done with a new bus, the
events that a receiver has heard are some of those that it is owed, in the order in which they were
published.  What it has heard, what it was told it had missed and what is left are as many as it is
owed, and it misses no more than what is left beyond the capacity.  Once the bus is closed, every
look takes something of what is left, and when nothing is left it finds the end, however often it
looks.  A receiver of one kind and one of all kinds that have subscribed at the same point, and have
missed nothing, have heard the same events of the kind in the same order, one of them perhaps
further than the other. -/
theorem no_event_is_lost (capacity : Nat) (deeds : List Deed) :
    let hall := Hall.run { bus := ofCapacity capacity } deeds
    hall.listeners.map (·.receiver.kind) = Deed.kinds deeds ∧
    (∀ (n : Nat) (l : Listener), hall.listeners[n]? = some l →
      (heard l.found).Sublist (owed l.receiver.kind n deeds) ∧
      (heard l.found).length + missed l.found + hall.bus.pending l.receiver =
        (owed l.receiver.kind n deeds).length ∧
      (capacity ≤ 2 ^ 64 → ∀ count : Nat, (hall.bus.receive l.receiver).1 = .lagged count →
        capacity + count ≤ hall.bus.pending l.receiver) ∧
      (.close ∈ deeds → ∀ more : List Deed,
        ∃ (l' : Listener) (taken : List Delivery) (ends : Nat),
        (hall.run more).listeners[n]? = some l' ∧
        l'.found = l.found ++ (taken ++ List.replicate ends .closed) ∧
        (∀ d ∈ taken, d ≠ .empty ∧ d ≠ .closed) ∧
        taken.length + (hall.run more).bus.pending l'.receiver ≤ hall.bus.pending l.receiver ∧
        (0 < ends → (hall.run more).bus.pending l'.receiver = 0) ∧
        (l.here = true → .drop n ∉ more →
          taken.length + ends = more.countP (Deed.isReceive n)))) ∧
    ∀ (m n : Nat) (l l' : Listener) (k : Event.Kind),
      hall.listeners[m]? = some l → hall.listeners[n]? = some l' →
      l.receiver.kind = some k → l'.receiver.kind = none →
      Deed.begun m deeds = Deed.begun n deeds → missed l.found = 0 → missed l'.found = 0 →
        heard l.found <+: owed (some k) m deeds ∧
        (heard l'.found).filter (takes (some k)) <+: owed (some k) m deeds ∧
        (hall.bus.pending l.receiver = 0 → hall.bus.pending l'.receiver = 0 →
          heard l.found = (heard l'.found).filter (takes (some k))) := by
  intro hall
  have haccounts : hall.Accounts deeds := .run capacity deeds
  have hleft : ∀ n l, hall.listeners[n]? = some l →
      (heard l.found).length + missed l.found + hall.bus.pending l.receiver =
        (owed l.receiver.kind n deeds).length := fun n l hl => by
    rw [pending, size_stream]
    exact (haccounts.follows n l hl).account
  refine ⟨haccounts.kinds, fun n l hl =>
    ⟨(haccounts.follows n l hl).sublist, hleft n l hl, fun hcapacity count hlagged => ?_,
      fun hclose more => ?_⟩, fun m n l l' k hl hl' hkind hkind' hsame hnone hnone' => ?_⟩
  · have hheld : hall.bus.capacity = (ofCapacity capacity).capacity := Hall.capacity_run _ deeds
    have hle : capacity ≤ hall.bus.capacity := hheld ▸ le_capacity_ofCapacity hcapacity
    obtain ⟨d, r', hx⟩ : ∃ d r', hall.bus.receive l.receiver = (d, r') := ⟨_, _, rfl⟩
    have hreceives := hall.bus.receives l.receiver
    rw [hx] at hreceives hlagged
    have hmissed : hall.bus.pending l.receiver = count + hall.bus.capacity := by
      cases hreceives with
      | lagged hpos hheld =>
        cases hlagged
        exact hheld
      | event => cases hlagged
      | none =>
        dsimp only at hlagged
        split at hlagged <;> cases hlagged
    omega
  · obtain ⟨l', taken, ends, hl', hdrains, hcount⟩ :=
      Hall.drains_run (haccounts.closed.mpr hclose) hl more
    have hlog := (Hall.bus_run_of_closed (haccounts.closed.mpr hclose) more).1
    have hpending := pending_eq_of_log hlog l'.receiver
    exact ⟨l', taken, ends, hl', hdrains.found, hdrains.something, hpending ▸ hdrains.left,
      hpending ▸ hdrains.ended, fun hhere hdrop => (hcount hhere hdrop).2⟩
  · have hfollows := haccounts.follows m l hl
    have hfollows' := haccounts.follows n l' hl'
    have hleft' := hleft n l' hl'
    have hleft := hleft m l hl
    rw [hkind] at hfollows hleft
    rw [hkind'] at hfollows' hleft'
    have howed := Hall.owed_some hsame k
    have hheard := hfollows.heard_eq hnone
    have hheard' := hfollows'.heard_eq hnone'
    refine ⟨?_, ?_, fun hdone hdone' => ?_⟩
    · rw [hheard]
      exact List.take_prefix _ _
    · rw [howed, hheard']
      exact (List.take_prefix _ _).filter _
    · rw [hheard, hheard', List.take_of_length_le (by omega),
        List.take_of_length_le (by omega), howed]

/-! ### An overture -/

/-- Somebody waits for breakpoints and somebody for everything, and both hear all of it. -/
def overture : List Deed :=
  [.subscribe (some .breakpointHit), .subscribe none,
    .publish ⟨.scriptStarted "overture", .epoch, .numbered 0⟩,
    .publish ⟨.breakpointHit 1, .epoch, .numbered 0⟩, .receive 0, .receive 1, .receive 1, .close]

/-- Both have heard of the same breakpoint, and each finds the end when it looks again. -/
theorem overture_is_heard :
    let hall := Hall.run { bus := ofCapacity 2 } overture
    ∃ l l' : Listener, hall.listeners[0]? = some l ∧ hall.listeners[1]? = some l' ∧
      (heard l.found).length = 1 ∧ (heard l'.found).length = 2 ∧
      heard l.found = (heard l'.found).filter (takes (some .breakpointHit)) ∧
      ∃ (last : Listener) (taken : List Delivery) (ends : Nat),
        (hall.run [.receive 1]).listeners[1]? = some last ∧
        last.found = l'.found ++ (taken ++ List.replicate ends .closed) ∧ taken.length = 0 ∧
        ends = 1 := by
  intro hall
  obtain ⟨-, hone, hboth⟩ := no_event_is_lost 2 overture
  obtain ⟨l, hl⟩ : ∃ l, hall.listeners[0]? = some l := ⟨_, rfl⟩
  obtain ⟨l', hl'⟩ : ∃ l', hall.listeners[1]? = some l' := ⟨_, rfl⟩
  have hclose : Deed.close ∈ overture := by simp [overture]
  obtain ⟨-, -, -, hend⟩ := hone 1 l' hl'
  obtain ⟨last, taken, ends, hlast, hfound, -, hleft, -, hcount⟩ := hend hclose [.receive 1]
  have hnothing : hall.bus.pending l'.receiver = 0 := by
    cases hl'
    rfl
  have hle : taken.length ≤ hall.bus.pending l'.receiver := Nat.le_of_add_right_le hleft
  have htaken : taken.length = 0 := by omega
  have hends : taken.length + ends = 1 := hcount (by cases hl'; rfl) (by simp)
  refine ⟨l, l', hl, hl', ?_, ?_, ?_, last, taken, ends, hlast, hfound, htaken, by omega⟩
  · cases hl
    rfl
  · cases hl'
    rfl
  · obtain ⟨-, -, hsame⟩ := hboth 0 1 l l' .breakpointHit hl hl' (by cases hl; rfl)
      (by cases hl'; rfl) rfl (by cases hl; rfl) (by cases hl'; rfl)
    exact hsame (by cases hl; rfl) hnothing

end Recital.Bus
