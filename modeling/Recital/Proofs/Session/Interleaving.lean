import Recital.Session
import Mathlib.Tactic.Common

/-!
# Interleavings

The requests to a player are in progress at the same time.  Each waits for something in its phase,
and between two steps of one request there may be any number of steps of the others, calls that are
made at once, and time.  `Session.Does` says what can happen to a session next, whatever the order
in which requests get their turn.
-/

namespace Recital

/-- A call to a player that is made at once. -/
inductive Call
  | pause
  | resume
  | stop
  /-- The signal of the caller is given. -/
  | cancel
  | setSpeed (speed : Binary64)
  | addBreakpoint (index : Nat)
  | removeBreakpoint (index : Nat)
  | clearBreakpoints
  | assign (name : String) (value : Json)
  | unassignAll

/-- What a call does. -/
def Player.perform (p : Player) : Call → Player
  | .pause => p.pause.2
  | .resume => p.resume.2
  | .stop => p.stop
  | .cancel => p.cancelCaller
  | .setSpeed speed => (p.setSpeed speed).2
  | .addBreakpoint index => (p.addBreakpoint index).2
  | .removeBreakpoint index => (p.removeBreakpoint index).2
  | .clearBreakpoints => p.clearBreakpoints
  | .assign name value => p.assign name value
  | .unassignAll => p.unassignAll

namespace Session

/-- Something that happens to a session. -/
inductive Action
  /-- A request is made. -/
  | submit (id : Nat) (request : Request)
  | call (call : Call)
  /-- A request goes on. -/
  | go (id : Nat)
  /-- Time passes. -/
  | wait (now : Nat)

/-- What an action may do to a session. -/
inductive Does (s : Session) : Action → Session → Prop
  /-- Every request has a number of its own. -/
  | submit {id : Nat} {r : Request} (hnew : ∀ t ∈ s.tasks, t.id ≠ id) :
    Does s (.submit id r) (s.submit id r)
  | call {c : Call} : Does s (.call c) { s with player := s.player.perform c }
  /-- A request makes a step and waits for something else. -/
  | goes {t : Task} {left right : List Task} {q : Player} {phase : Phase}
    (htasks : s.tasks = left ++ t :: right)
    (hstep : s.player.step t.id t.phase = (q, .goes phase)) :
    Does s (.go t.id) { s with player := q, tasks := left ++ { t with phase } :: right }
  /-- A request makes its last step. -/
  | ends {t : Task} {left right : List Task} {q : Player} {answer : Answer}
    (htasks : s.tasks = left ++ t :: right)
    (hstep : s.player.step t.id t.phase = (q, .ends answer)) :
    Does s (.go t.id)
      { player := q, tasks := left ++ right, ended := s.ended.push ⟨t.id, q.now, answer⟩ }
  | wait {now : Nat} (hnow : s.player.now ≤ now) : Does s (.wait now) (s.setClock now)

variable {s s' : Session} {a : Action}

/-- The session after one of its requests had its turn, the `n`-th in order of age.  It makes a step
if it can. -/
def turn (s : Session) (n : Nat) : Session :=
  match s.tasks[n]? with
  | none => s
  | some t =>
    match s.player.step t.id t.phase with
    | (_, .blocked) => s
    | (q, .goes phase) =>
      { s with player := q, tasks := s.tasks.take n ++ { t with phase } :: s.tasks.drop (n + 1) }
    | (q, .ends answer) =>
      { player := q
        tasks := s.tasks.take n ++ s.tasks.drop (n + 1)
        ended := s.ended.push ⟨t.id, q.now, answer⟩ }

/-- A request that has its turn and can go on does so. -/
lemma does_turn {n : Nat} {t : Task} (ht : s.tasks[n]? = some t)
    (hready : (s.player.step t.id t.phase).2 ≠ .blocked) : s.Does (.go t.id) (s.turn n) := by
  obtain ⟨hlt, hget⟩ := List.getElem?_eq_some_iff.mp ht
  have htasks : s.tasks = s.tasks.take n ++ t :: s.tasks.drop (n + 1) := by
    rw [← hget, ← List.drop_eq_getElem_cons hlt, List.take_append_drop]
  unfold turn
  rw [ht]
  dsimp only
  split
  · next hstep =>
    rw [hstep] at hready
    exact absurd rfl hready
  · next q phase hstep => exact .goes htasks hstep
  · next q answer hstep => exact .ends htasks hstep

/-- A request that has its turn goes on, or nothing happens. -/
lemma turn_eq_or_does (s : Session) (n : Nat) :
    s.turn n = s ∨ ∃ t ∈ s.tasks, s.Does (.go t.id) (s.turn n) := by
  cases ht : s.tasks[n]? with
  | none =>
    refine .inl ?_
    unfold turn
    rw [ht]
  | some t =>
    by_cases hready : (s.player.step t.id t.phase).2 = .blocked
    · refine .inl ?_
      unfold turn
      rw [ht]
      dsimp only
      split
      · rfl
      · next hstep =>
        rw [hstep] at hready
        cases hready
      · next hstep =>
        rw [hstep] at hready
        cases hready
    · exact .inr ⟨t, List.mem_of_getElem? ht, does_turn ht hready⟩

/-- No two requests in progress have the same number. -/
def Distinct (s : Session) : Prop := (s.tasks.map Task.id).Nodup

/-- A request in progress is told apart from the others by its number. -/
lemma Distinct.ne {t u : Task} {left right : List Task} (hs : s.Distinct)
    (htasks : s.tasks = left ++ t :: right) (hu : u ∈ left ++ right) : u.id ≠ t.id := by
  unfold Distinct at hs
  rw [htasks, List.map_append, List.map_cons, List.nodup_append] at hs
  obtain ⟨-, hright, hleft⟩ := hs
  rcases List.mem_append.mp hu with hu | hu
  · exact hleft u.id (List.mem_map_of_mem hu) t.id List.mem_cons_self
  · intro heq
    have hmem : t.id ∈ right.map Task.id := heq ▸ List.mem_map_of_mem hu
    exact (List.nodup_cons.mp hright).1 hmem

/-- Numbers stay distinct whatever happens. -/
lemma Does.distinct (h : s.Does a s') (hs : s.Distinct) : s'.Distinct := by
  cases h with
  | @submit id r hnew =>
    unfold Distinct at hs ⊢
    simp only [Session.submit, List.map_append]
    rw [List.nodup_append]
    refine ⟨hs, by simp, fun a ha b hb => ?_⟩
    obtain ⟨t, ht, rfl⟩ := List.mem_map.mp ha
    have hb : b = id := by simpa using hb
    rw [hb]
    exact hnew t ht
  | call => exact hs
  | goes htasks _ =>
    unfold Distinct at hs ⊢
    rw [htasks] at hs
    simpa using hs
  | ends htasks _ =>
    unfold Distinct at hs ⊢
    rw [htasks] at hs
    refine List.Nodup.sublist ?_ hs
    exact ((List.sublist_cons_self _ _).append_left _).map _
  | wait => exact hs

end Session

end Recital
