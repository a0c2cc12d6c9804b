import Reconciler.Proofs.Interleaving

/-! # Schedules

An interleaving given as a list of moves: which pass begins, which one gets its next answer, when others
act. Here the store is reliable, the clock stands still and draws come in the order of the pool, so a
schedule has one run, and that run can be computed.

* `run_of_moves`: what a schedule plays is a run;
* `inTurn`: the schedules in which passes take turns with others.
-/

namespace Reconciler

def Cluster.answered (c : Cluster) : (op : PassOp) → op.Answer × Cluster
  | .store call => (c.reported call, (c.perform call).2)
  | .instant => ((0 : Int), c)
  | .seconds => ((0 : Rat), c)
  | .random .source => ((), c)
  | .random (.sample pool count) =>
    (if RandomOp.refuses pool count then Except.error RandomOp.refusal
      else Except.ok (pool.take count.toNat), c)
  | .random (.shuffle chars) => (chars, c)
  | .trace _ => ((), c)

/-- The answer is one that a reliable store and any clock may give. -/
theorem Cluster.facing_answered (c : Cluster) (op : PassOp) :
    facing reliable c op (c.answered op).1 (c.answered op).2 := by
  match op with
  | .store call => exact ⟨rfl, rfl⟩
  | .instant | .seconds | .trace _ => rfl
  | .random .source => exact ⟨trivial, rfl⟩
  | .random (.sample pool count) => exact ⟨RandomOp.lawful_take pool count, rfl⟩
  | .random (.shuffle chars) => exact ⟨List.Perm.refl _, rfl⟩

/-- The answers of a cluster that does not fail. -/
def reliably (op : PassOp) : StateM Cluster op.Answer :=
  fun c => c.answered op

/-- The answers of a cluster that does not fail are those of a reliable store. -/
theorem facing_reliably (c : Cluster) (op : PassOp) :
    facing reliable c op (reliably op c).1 (reliably op c).2 :=
  c.facing_answered op

/-- A store that may fail may also not fail. -/
theorem facing_unreliable {c c' : Cluster} {op : PassOp} {answer : op.Answer}
    (h : facing reliable c op answer c') : facing unreliable c op answer c' := by
  cases op with
  | store call => exact .inl h
  | _ => exact h

def History.after (h : History) : (op : PassOp) → op.Answer → History
  | .store call, (reply : Except Failure Value) => h ++ [(call, reply)]
  | _, _ => h

/-- The history after a question is what an unreliable store may have noted. -/
theorem History.noted_after (h : History) {c c' : Cluster} {op : PassOp} {answer : op.Answer}
    (hanswer : facing unreliable c op answer c') : facing noted h op answer (h.after op answer) := by
  match op with
  | .store _ => rfl
  | .instant | .seconds | .trace _ => rfl
  | .random _ => exact ⟨hanswer.1, rfl⟩

namespace System

/-- What happens next. -/
inductive Move where
  /-- A pass begins. -/
  | begin (p : SafePass Directive)
  /-- A pass gets its next answer. -/
  | turn (pass : Nat)
  /-- Others change the cluster. -/
  | outside (change : Cluster → Cluster)

/-- The system after a move; a pass that is finished or was never begun has no turn. -/
def moved (s : System) : Move → Option System
  | .begin p => some { s with passes := s.passes ++ [⟨[], p⟩] }
  | .outside change => some { s with cluster := change s.cluster }
  | .turn i =>
    match s.passes[i]? with
    | some ⟨h, .ask op next⟩ =>
      let (answer, c) := s.cluster.answered op
      some ⟨c, s.passes.set i ⟨h.after op answer, next answer⟩⟩
    | _ => none

/-- The systems that a schedule goes through after those of the past, the latest first. -/
def played (s : System) (past : List System) : List Move → List System
  | [] => s :: past
  | move :: rest =>
    match s.moved move with
    | some s' => played s' (s :: past) rest
    | none => played s past rest

variable {begins : SafePass Directive → Prop} {outside : Cluster → Cluster → Prop}

/-- The moves of an interleaving. -/
def Move.Allowed (begins : SafePass Directive → Prop) (outside : Cluster → Cluster → Prop) :
    Move → Prop
  | .begin p => begins p
  | .turn _ => True
  | .outside change => ∀ c, outside c (change c)

/-- A move that is allowed and possible is a step. -/
theorem step_moved {s s' : System} {move : Move} (hmove : move.Allowed begins outside)
    (h : s.moved move = some s') : Step begins outside s s' := by
  cases move with
  | begin p =>
    obtain rfl := Option.some.inj h
    exact .begin hmove
  | outside change =>
    obtain rfl := Option.some.inj h
    exact .outside (hmove _)
  | turn i =>
    simp only [moved] at h
    split at h
    · next h' op next hi =>
      obtain rfl := Option.some.inj h
      -- a store that may fail may also answer as the cluster does
      have hanswer := facing_unreliable (s.cluster.facing_answered op)
      exact .exchange hi hanswer (History.noted_after _ hanswer)
    · cases h

/-- What a schedule plays goes on with a run. -/
theorem run_played {first s : System} {past : List System} {moves : List Move}
    (hmoves : ∀ move ∈ moves, move.Allowed begins outside)
    (hrun : Run (Step begins outside) first (s :: past)) :
    Run (Step begins outside) first (s.played past moves) := by
  induction moves generalizing s past with
  | nil => exact hrun
  | cons move rest ih =>
    have hrest : ∀ move ∈ rest, move.Allowed begins outside := fun m hm => hmoves m (by simp [hm])
    simp only [played]
    -- a move that is not possible is left out
    cases hmoved : s.moved move with
    | none => exact ih hrest hrun
    | some s' => exact ih hrest (.next hrun (step_moved (hmoves move (by simp)) hmoved))

/-- A schedule with nobody else at work: others act, then a pass gets all its turns, and so on. -/
def inTurn (p : SafePass Directive) (turns : Nat) (changes : List (Cluster → Cluster)) : List Move :=
  changes.zipIdx.flatMap fun (change, i) =>
    .outside change :: .begin p :: List.replicate turns (.turn i)

/-- A schedule of turns is allowed when the pass may begin and everybody else may do what they do. -/
theorem inTurn_allowed {p : SafePass Directive} {turns : Nat} {changes : List (Cluster → Cluster)}
    (hp : begins p) (hchanges : ∀ change ∈ changes, ∀ c, outside c (change c)) :
    ∀ move ∈ inTurn p turns changes, move.Allowed begins outside := by
  intro move hmove
  rcases List.mem_flatMap.mp hmove with ⟨⟨change, i⟩, hmem, hmove⟩
  have hchange : change ∈ changes := List.fst_mem_of_mem_zipIdx hmem
  simp only [List.mem_cons, List.mem_replicate] at hmove
  rcases hmove with rfl | rfl | ⟨-, rfl⟩
  · exact hchanges change hchange
  · exact hp
  · trivial

/-- A schedule plays a run, from any system on. -/
theorem run_of_moves {moves : List Move} (hmoves : ∀ move ∈ moves, move.Allowed begins outside)
    (first : System) : Run (Step begins outside) first (first.played [] moves) :=
  run_played hmoves .start

end System

end Reconciler
