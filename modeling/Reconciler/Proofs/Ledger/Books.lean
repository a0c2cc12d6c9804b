import Reconciler.Proofs.Ledger.Deeds
import Reconciler.Proofs.Ownership.Interference
import Reconciler.Simulation.World
import Mathlib.Logic.Relation

/-! # The counters agree with the write log

Passes of all handlers share one cluster and one registry, in whatever order their questions are answered. What
they call for is written down together with what it did. While a pass is on its way, its counts may be ahead of
its calls or behind them, so the invariant goes through the tallies of all passes: what they counted is what the
registry went up by, what they owe is what the calls did. A pass that is over owes nothing, and so the two agree
when all passes are over.

Main definitions and statements:

* `Books`, `Books.Step`: the cluster, the registry, all calls so far, and all passes;
* `Balanced`: the invariant, kept by every step (`Balanced.step`);
* `counters_equal_writes`: when all passes are over, the counters went up by what was written.
-/

namespace Reconciler

/-! ## Totals -/

namespace Registry

def noting (r : Registry) : Trace → Registry
  | .count c => r.increment c
  | .observe t seconds => r.observe t seconds
  | _ => r

/-- The registry of a world changes by what is left behind as the one of the books does. -/
theorem registry_left (w : World) (t : Trace) : (w.left t).registry = w.registry.noting t := by
  cases t with
  | openSpan name attributes =>
    simp only [World.left]
    split <;> rfl
  | closeSpan failure =>
    simp only [World.left]
    split <;> rfl
  | _ => rfl

/-- A counter goes up by one when it is counted, and no other does. -/
theorem lookup_bump (c d : Counter) (counters : List (Counter × Nat)) :
    ((bump d counters).lookup c).getD 0 = (counters.lookup c).getD 0 + [d].count c := by
  induction counters with
  | nil =>
    by_cases h : c = d
    · simp [bump, h]
    · simp [bump, List.lookup_cons, beq_false_of_ne h, Ne.symm h]
  | cons entry rest ih =>
    rcases entry with ⟨e, n⟩
    -- the counter goes up where it is found first
    by_cases he : e = d
    · subst he
      by_cases h : c = e
      · simp [bump, h]
      · simp [bump, List.lookup_cons, beq_false_of_ne h, Ne.symm h]
    · by_cases h : c = e
      · subst h
        simp [bump, he, Ne.symm he]
      · simp only [bump, if_neg he, List.lookup_cons, beq_false_of_ne h, ih]

/-- What is left behind is counted in the registry. -/
theorem total_noting (r : Registry) (t : Trace) (c : Counter) :
    (r.noting t).total c = r.total c + t.counts.count c := by
  cases t with
  | count d => exact lookup_bump c d r.counters
  | _ => rfl

end Registry

namespace Ledger

open Cluster

/-! ## Books -/

/-- A pass over a resource of a kind, on its way. -/
structure Worker where
  kind : String
  rest : SafePass Directive

/-- The cluster, the registry, all calls of passes, oldest first, and all passes that were ever begun. -/
structure Books where
  cluster : Cluster
  registry : Registry
  deeds : List Deed
  workers : List Worker

namespace Books

def opened (c : Cluster) (r : Registry) : Books := ⟨c, r, [], []⟩

def joined (b : Books) (w : Worker) : Books := { b with workers := b.workers ++ [w] }

/-- The books after a question of a pass was answered, with the cluster as it is by then. -/
def after (b : Books) (kind : String) (op : PassOp) (c : Cluster) : Books where
  cluster := c
  registry := match op with
    | .trace t => b.registry.noting t
    | _ => b.registry
  deeds := match op with
    | .store call => b.deeds ++ [⟨kind, call, b.cluster, c⟩]
    | _ => b.deeds
  workers := b.workers

/-- One step: a pass of some handler begins, a pass gets an answer, or others change the cluster. -/
inductive Step (outside : Cluster → Cluster → Prop) : Books → Books → Prop where
  | begin {b : Books} {settings settings' : Settings} {h : Handler} (id : Identity) :
      h ∈ handlers settings →
      Step outside b (b.joined ⟨h.kind, h.reconcile settings' id⟩)
  | exchange {b : Books} {i : Nat} {kind : String} {op : PassOp} {next : op.Answer → SafePass Directive}
      {reply : op.Answer} {c : Cluster} :
      b.workers[i]? = some ⟨kind, .ask (S := passSignature) op next⟩ →
      facing sparing b.cluster op reply c →
      Step outside b { b.after kind op c with workers := b.workers.set i ⟨kind, next reply⟩ }
  | outside {b : Books} {c : Cluster} : outside b.cluster c → Step outside b { b with cluster := c }

def Closed (b : Books) : Prop :=
  ∀ w ∈ b.workers, ∃ d, w.rest = .done d

end Books

/-! ## The invariant -/

/-- When one entry of a list changes, a count over all entries changes by as much as the count over that
entry. -/
theorem count_flatMap_set {α β : Type} [BEq β] {l : List α} {i : Nat} {x : α} (f : α → List β) (c : β)
    (h : l[i]? = some x) (y : α) :
    ((l.set i y).flatMap f).count c + (f x).count c = (l.flatMap f).count c + (f y).count c := by
  induction l generalizing i with
  | nil => simp at h
  | cons first rest ih =>
    -- only the list of the changed place differs
    cases i with
    | zero =>
      obtain rfl : first = x := by simpa using h
      simp only [List.set_cons_zero, List.flatMap_cons, List.count_append]
      omega
    | succ i =>
      have hrest := ih (i := i) (by simpa using h)
      simp only [List.set_cons_succ, List.flatMap_cons, List.count_append]
      omega

abbrev Tallied : Type := Worker × Tally

/-- The cluster is in order, every pass goes on to count what it owes, what passes counted is what the registry
went up by, and what they owe is what their calls did. -/
structure Balanced (r : Registry) (tallied : List Tallied) (b : Books) : Prop where
  workers : tallied.map Prod.fst = b.workers
  tidy : Tidy b.cluster
  shaped : Shaped b.cluster
  copies : ∀ e ∈ tallied, ∀ a, ∀ copy ∈ e.2.heard.reads a, Copied a b.cluster copy
  reckons : ∀ e ∈ tallied, Reckons e.1.kind (fun t _ => Square .none [] [] t) e.1.rest e.2
  counted : ∀ counter, b.registry.total counter =
    r.total counter + (tallied.flatMap (·.2.counted)).count counter
  owed : ∀ counter tells, Gauge counter tells →
    b.deeds.countP tells = (tallied.flatMap (·.2.owed)).count counter

section Balance

variable {r : Registry} {tallied : List Tallied} {b b' : Books} {outside : Cluster → Cluster → Prop}

/-- Books without passes are balanced. -/
theorem balanced_opened {c : Cluster} (htidy : Tidy c) (hshaped : Shaped c) (r : Registry) :
    Balanced r [] (.opened c r) :=
  ⟨rfl, htidy, hshaped, nofun, nofun, fun _ => rfl, fun _ _ _ => rfl⟩

/-- A pass that begins has counted nothing, owes nothing, and goes on to count what it owes. -/
theorem Balanced.begin (hb : Balanced r tallied b) {settings settings' : Settings} {h : Handler}
    (id : Identity) (hhandler : h ∈ handlers settings) :
    Balanced r (tallied ++ [(⟨h.kind, h.reconcile settings' id⟩, ({} : Tally))])
      (b.joined ⟨h.kind, h.reconcile settings' id⟩) where
  workers := by simp [Books.joined, hb.workers]
  tidy := hb.tidy
  shaped := hb.shaped
  -- a pass that begins has neither read nor counted anything
  copies := by
    intro e he a copy hcopy
    rcases List.mem_append.mp he with he | he
    · exact hb.copies e he a copy hcopy
    · obtain rfl := List.mem_singleton.mp he
      cases hcopy
  reckons := by
    intro e he
    rcases List.mem_append.mp he with he | he
    · exact hb.reckons e he
    · obtain rfl := List.mem_singleton.mp he
      exact reconcile_reckons hhandler id
  counted := by simpa [Books.joined] using hb.counted
  owed := by simpa [Books.joined] using hb.owed

/-- What others do is no deed of a pass, and counts nothing. -/
theorem Balanced.elsewhere (hb : Balanced r tallied b) {c : Cluster} (hrenews : Renews b.cluster c)
    (hshaped : Shaped c) : Balanced r tallied { b with cluster := c } :=
  { hb with
    tidy := hrenews.tidy hb.tidy
    shaped := hshaped
    copies := fun e he a copy hcopy => (hb.copies e he a copy hcopy).renewed hrenews }

/-- An answer is in balance when what the pass counted goes to the registry, and what it owes is what its call
did. -/
theorem Balanced.answered (hb : Balanced r tallied b) {i : Nat} {w : Worker} {t : Tally} (t' : Tally)
    {rest : SafePass Directive} (hi : tallied[i]? = some (w, t))
    (hworkers : b'.workers = b.workers.set i ⟨w.kind, rest⟩)
    (hrenews : Renews b.cluster b'.cluster) (hshaped : Shaped b'.cluster)
    (hcopies : ∀ a, ∀ copy ∈ t'.heard.reads a, Copied a b'.cluster copy)
    (hreckons : Reckons w.kind (fun t _ => Square .none [] [] t) rest t')
    (hcounted : ∀ counter, b'.registry.total counter + t.counted.count counter =
      b.registry.total counter + t'.counted.count counter)
    (howed : ∀ counter tells, Gauge counter tells →
      b'.deeds.countP tells + t.owed.count counter = b.deeds.countP tells + t'.owed.count counter) :
    Balanced r (tallied.set i (⟨w.kind, rest⟩, t')) b' where
  workers := by rw [List.map_set, hb.workers, hworkers]
  tidy := hrenews.tidy hb.tidy
  shaped := hshaped
  copies := by
    intro e he a copy hcopy
    rcases List.mem_or_eq_of_mem_set he with he | rfl
    · exact (hb.copies e he a copy hcopy).renewed hrenews
    · exact hcopies a copy hcopy
  reckons := by
    intro e he
    rcases List.mem_or_eq_of_mem_set he with he | rfl
    · exact hb.reckons e he
    · exact hreckons
  counted := by
    intro counter
    -- only this pass counts and owes more than before, and the registry and the deeds grow by as much
    have hsum := count_flatMap_set (fun e : Tallied => e.2.counted) counter hi (⟨w.kind, rest⟩, t')
    have hbefore := hb.counted counter
    have hnow := hcounted counter
    dsimp only at hsum
    omega
  owed := by
    intro counter tells hgauge
    have hsum := count_flatMap_set (fun e : Tallied => e.2.owed) counter hi (⟨w.kind, rest⟩, t')
    have hbefore := hb.owed counter tells hgauge
    have hnow := howed counter tells hgauge
    dsimp only at hsum
    omega

/-- A call that is answered renews what it changes. -/
theorem renews_sparing {c c' : Cluster} {call : StoreCall} {reply : Except Failure Value}
    (h : sparing c call reply c') : Renews c c' := by
  rcases sparing_cases h with ⟨-, rfl⟩ | ⟨v, -, hdone⟩
  · exact .refl _
  · have hrenews := renews_perform c call
    rwa [hdone] at hrenews

/-- What a pass fetches is a copy of what is stored. -/
theorem copied_of_heard {c c' : Cluster} {past : History} {call : StoreCall} {reply : Except Failure Value}
    (htidy : Tidy c) (hcopies : ∀ a, ∀ copy ∈ past.reads a, Copied a c copy)
    (hanswer : sparing c call reply c') :
    ∀ a, ∀ copy ∈ History.reads a (past ++ [(call, reply)]), Copied a c' copy := by
  intro a copy hcopy
  have hrenews := renews_sparing hanswer
  rcases History.mem_reads_append hcopy with hold | ⟨rfl, rfl⟩
  · exact (hcopies a copy hold).renewed hrenews
  · rcases sparing_cases hanswer with ⟨⟨f, hf⟩, -⟩ | ⟨v, hv, hdone⟩
    · cases hf
    · obtain rfl := Except.ok.inj hv
      exact (htidy.copied (find?_of_get (congrArg Prod.fst hdone))).renewed hrenews

/-- One step keeps the balance. -/
theorem Balanced.step (houtside : ∀ c c', outside c c' → Renews c c' ∧ (Shaped c → Shaped c'))
    (hb : Balanced r tallied b) (hstep : Books.Step outside b b') : ∃ tallied', Balanced r tallied' b' := by
  cases hstep with
  | begin id hhandler => exact ⟨_, hb.begin id hhandler⟩
  | @outside c hout =>
    obtain ⟨hrenews, hshaped⟩ := houtside _ _ hout
    exact ⟨_, hb.elsewhere hrenews (hshaped hb.shaped)⟩
  | @exchange i kind op next reply c hi hanswer =>
    rw [← hb.workers, List.getElem?_map, Option.map_eq_some_iff] at hi
    obtain ⟨⟨_, t⟩, hi, rfl⟩ := hi
    obtain ⟨hproper, hnext⟩ := hb.reckons _ (List.mem_of_getElem? hi)
    have hcopies := hb.copies _ (List.mem_of_getElem? hi)
    cases op with
    | store call =>
      -- the deed is entered together with what the pass owes for it
      refine ⟨_, hb.answered (t.hearing kind call reply) hi rfl (renews_sparing hanswer)
        (hb.shaped.kept hb.tidy hcopies hproper hanswer) (copied_of_heard hb.tidy hcopies hanswer)
        (hnext reply _ ⟨fits_of_sparing hb.shaped hb.tidy hanswer, rfl⟩) (fun _ => rfl) ?_⟩
      intro counter tells hgauge
      have hdue := count_due hb.tidy hcopies hproper hanswer hgauge
      simp only [Books.after, Tally.hearing, List.countP_append, List.countP_singleton, List.count_append, hdue]
      omega
    | trace left =>
      -- a count goes to the registry and to the tally of the pass
      obtain rfl : c = b.cluster := hanswer
      refine ⟨_, hb.answered (t.counting left.counts) hi rfl (.refl _) hb.shaped hcopies
        (hnext reply _ rfl) ?_ fun _ _ _ => rfl⟩
      intro counter
      simp only [Books.after, Registry.total_noting, Tally.counting, List.count_append]
      omega
    | random op =>
      obtain rfl : c = b.cluster := hanswer.2
      exact ⟨_, hb.answered t hi rfl (.refl _) hb.shaped hcopies (hnext reply _ rfl) (fun _ => rfl)
        fun _ _ _ => rfl⟩
    | instant | seconds =>
      obtain rfl : c = b.cluster := hanswer
      exact ⟨_, hb.answered t hi rfl (.refl _) hb.shaped hcopies (hnext reply _ rfl) (fun _ => rfl)
        fun _ _ _ => rfl⟩

/-- A run keeps the balance, since each of its steps does. -/
theorem Balanced.run (houtside : ∀ c c', outside c c' → Renews c c' ∧ (Shaped c → Shaped c'))
    (hb : Balanced r tallied b) (hrun : Relation.ReflTransGen (Books.Step outside) b b') :
    ∃ tallied', Balanced r tallied' b' := by
  induction hrun with
  | refl => exact ⟨_, hb⟩
  | tail _ hstep ih =>
    obtain ⟨_, hb⟩ := ih
    exact hb.step houtside hstep

/-- When all passes are over, a counter went up by what it stands for. -/
theorem Balanced.closed (hb : Balanced r tallied b) (hclosed : b.Closed) {counter : Counter}
    {tells : Deed → Bool} (hgauge : Gauge counter tells) :
    b.registry.total counter = r.total counter + b.deeds.countP tells := by
  rw [hb.counted, hb.owed counter tells hgauge, List.count_flatMap, List.count_flatMap]
  congr 2
  refine List.map_congr_left fun e he => ?_
  have hworker : e.1 ∈ b.workers := hb.workers ▸ List.mem_map_of_mem he
  obtain ⟨d, hd⟩ := hclosed _ hworker
  have hsquare := hb.reckons e he
  rw [hd] at hsquare
  simpa using Square.even hsquare counter hgauge.watched

end Balance

/-- However passes of all handlers and what others do follow each other: if failing calls have no effect, if
others give what they change a new version, and if stored Services have an object or nothing as their spec, then,
as soon as all passes are over,

* the count of successful creations of a kind went up by the number of objects of that kind that were created,
* that of successful updates of Services by the number of Services that were updated,
* that of drifts of Services by the number of updates of Services that passes over a kind of resource tried,
* and that of a stage by the number of requests of a kind whose stored stage changed to it. -/
theorem counters_equal_writes {c : Cluster} {r : Registry} {outside : Cluster → Cluster → Prop} {b : Books}
    (htidy : Tidy c) (hshaped : Shaped c)
    (houtside : ∀ c c', outside c c' → Renews c c' ∧ (Shaped c → Shaped c'))
    (hrun : Relation.ReflTransGen (Books.Step outside) (.opened c r) b) (hclosed : b.Closed) :
    (∀ kind, b.registry.total (.childOperations kind "create" "success") =
      r.total (.childOperations kind "create" "success") + b.deeds.countP (·.created kind)) ∧
    b.registry.total (.childOperations Kind.service "update" "success") =
      r.total (.childOperations Kind.service "update" "success") +
        b.deeds.countP (·.updated Kind.service) ∧
    (∀ kind, b.registry.total (.drifts kind Kind.service) =
      r.total (.drifts kind Kind.service) +
        b.deeds.countP fun d => d.kind = kind && d.updates Kind.service) ∧
    ∀ kind ∈ requestKinds, ∀ stage : Stage, b.registry.total (.transitions kind stage.name) =
      r.total (.transitions kind stage.name) + b.deeds.countP (·.entered kind stage) := by
  obtain ⟨tallied, hb⟩ := (balanced_opened htidy hshaped r).run houtside hrun
  exact ⟨fun kind => hb.closed hclosed (.created kind), hb.closed hclosed .updated,
    fun kind => hb.closed hclosed (.drift kind), fun kind hk stage => hb.closed hclosed (.entered stage hk)⟩

/-! ### A run with failures -/

/-- The answers of a store that is down for some calls. -/
def answering (down : StoreCall → Bool) (kind : String) (op : PassOp) : StateM Books op.Answer := fun b =>
  match op with
  | .store call =>
    if down call then
      (.error ⟨.store "connection refused" .null, none⟩, b.after kind (.store call) b.cluster)
    else (b.cluster.reported call, b.after kind (.store call) (b.cluster.perform call).2)
  | op => ((b.cluster.answered op).1, b.after kind op b.cluster)

/-- The books after a pass that was begun and run to its end. -/
def Books.pursued (b : Books) (down : StoreCall → Bool) (kind : String) (p : SafePass Directive) : Books :=
  let (d, ended) := p.run (answering down kind) b
  { ended with workers := b.workers ++ [⟨kind, .done d⟩] }

/-- A store that is down for some calls is one whose calls may fail. -/
theorem facing_answering (down : StoreCall → Bool) (kind : String) (op : PassOp) (b : Books) :
    ∃ c, facing sparing b.cluster op (answering down kind op b).1 c ∧
      (answering down kind op b).2 = b.after kind op c := by
  cases op with
  | store call =>
    by_cases hdown : down call = true
    · simp only [answering, hdown, if_true]
      exact ⟨b.cluster, .inr ⟨⟨_, rfl⟩, rfl⟩, rfl⟩
    · simp only [answering, if_neg hdown]
      exact ⟨_, .inl ⟨rfl, rfl⟩, rfl⟩
  | random op =>
    obtain ⟨hlawful, -⟩ := b.cluster.facing_answered (.random op)
    exact ⟨b.cluster, ⟨hlawful, rfl⟩, rfl⟩
  | instant | seconds | trace => exact ⟨b.cluster, rfl, rfl⟩

/-- A pass that is begun and run to its end is a run of steps. -/
theorem run_pursued {outside : Cluster → Cluster → Prop} (down : StoreCall → Bool) (kind : String)
    (p : SafePass Directive) (b : Books) :
    Relation.ReflTransGen (Books.Step outside) (b.joined ⟨kind, p⟩) (b.pursued down kind p) := by
  induction p generalizing b with
  | done d => exact .refl
  | ask op next ih =>
    obtain ⟨c, hanswer, hafter⟩ := facing_answering down kind op b
    -- the pass that was begun last is the one that gets the answer
    have hstep : Books.Step outside (b.joined ⟨kind, .ask op next⟩)
        ((b.after kind op c).joined ⟨kind, next (answering down kind op b).1⟩) := by
      have hlast : (b.joined ⟨kind, .ask op next⟩).workers[b.workers.length]? =
          some ⟨kind, .ask op next⟩ := by simp [Books.joined]
      have hexchange : Books.Step outside _ _ := .exchange hlast hanswer
      simpa [Books.joined, Books.after, List.set_append] using hexchange
    have hpursued : b.pursued down kind (.ask op next) =
        (b.after kind op c).pursued down kind (next (answering down kind op b).1) := by
      have hworkers : (answering down kind op b).2.workers = b.workers := by rw [hafter]; rfl
      rw [← hafter]
      simp only [Books.pursued, hworkers]
      rfl
    rw [hpursued]
    exact (ih _ (b.after kind op c)).head hstep

/-- A pass of a handler, from its beginning to its end. -/
theorem run_pass {outside : Cluster → Cluster → Prop} (down : StoreCall → Bool) {settings : Settings}
    {h : Handler} (hhandler : h ∈ handlers settings) (id : Identity) (b : Books) :
    Relation.ReflTransGen (Books.Step outside) b (b.pursued down h.kind (h.reconcile settings id)) :=
  .head (.begin id hhandler) (run_pursued down h.kind _ b)

theorem closed_pursued {b : Books} (hclosed : b.Closed) (down : StoreCall → Bool) (kind : String)
    (p : SafePass Directive) : (b.pursued down kind p).Closed := by
  intro w hw
  rcases List.mem_append.mp hw with hold | hlast
  · exact hclosed w hold
  · obtain rfl := List.mem_singleton.mp hlast
    exact ⟨_, rfl⟩

/-- The books after two passes, of which the first cannot make the calls of an operation. -/
def Books.retried (b : Books) (operation : String) (h : Handler) (id : Identity) : Books :=
  (b.pursued (·.operation = operation) h.kind (h.reconcile {} id)).pursued (fun _ => false) h.kind
    (h.reconcile {} id)

/-- Two passes, one after the other, make a run of the books. -/
theorem run_retried {outside : Cluster → Cluster → Prop} {h : Handler} (hhandler : h ∈ handlers {})
    (b : Books) (operation : String) (id : Identity) :
    Relation.ReflTransGen (Books.Step outside) b (b.retried operation h id) :=
  (run_pass _ hhandler id b).trans (run_pass _ hhandler id _)

/-- Two passes that were run to their ends leave the books closed. -/
theorem closed_retried {b : Books} (hclosed : b.Closed) (operation : String) (h : Handler) (id : Identity) :
    (b.retried operation h id).Closed :=
  closed_pursued (closed_pursued hclosed _ _ _) _ _ _

/-- Others store the status of an object. -/
def Reported (c c' : Cluster) : Prop :=
  ∃ object, c' = (c.perform (.updateStatus object)).2

/-- A status that others store leaves the spec of a Service as it is. -/
theorem Shaped.reported {c c' : Cluster} (hshaped : Shaped c) (h : Reported c c') : Shaped c' := by
  obtain ⟨object, rfl⟩ := h
  rcases updateStatus_cases c object with ⟨f, hrefused⟩ |
    ⟨a, stored, status, base, replaced, -, hcurrent, -, hbase, hreplaced, hdone⟩
  · rwa [perform, hrefused]
  · rw [perform, hdone]
    refine hshaped.stores (a := a) (v := replaced) (fun b => by simp [find?_withObject]) fun hservice => ?_
    have hspec : replaced.field? "spec" = stored.field? "spec" := by
      rw [field?_withVersion hreplaced (by decide), Value.field?_setField_of_ne hbase (by decide)]
    rw [SpecShaped, hspec]
    exact hshaped a stored (of_current hcurrent).1 hservice

theorem renews_reported {c c' : Cluster} (h : Reported c c') : Renews c c' := by
  obtain ⟨object, rfl⟩ := h
  exact renews_perform c _

/-- A request that waits for its job, and a database whose endpoint is to be corrected. -/
def troubledCluster : Cluster :=
  [Provisioning.sampleProvisioner, Provisioning.sampleRequest Kind.resource].foldl
    (fun c object => (c.put object).2) unexposedCluster

/-- The job of the request with the status it has when it is completed. -/
def completedJob (c : Cluster) : Value :=
  ((c.find? ⟨.text Kind.job, .text "default", .text "db"⟩).bind fun job =>
    (job.setField "status"
      (.object [("conditions", .list [.object [("type", .text "Complete")]])])).toOption).getD .null

/-- The books after the job of the request was completed. -/
def Books.jobCompleted (b : Books) : Books :=
  { b with cluster := (b.cluster.perform (.updateStatus (completedJob b.cluster))).2 }

/-- The job of the request is made at the second attempt, and completed. Then the request is ready, and the
endpoint is corrected at the second attempt. -/
def troubledRun : Books :=
  let request := Provisioning.handler {} Kind.resource
  (((Books.opened troubledCluster .empty).retried "create" request Provisioning.sampleId).jobCompleted.retried
    "create" request Provisioning.sampleId).retried "update" (databaseHandler {})
    ⟨.text "default", .text "pg"⟩

theorem troubledRun_reached :
    Relation.ReflTransGen (Books.Step Reported) (.opened troubledCluster .empty) troubledRun := by
  have hrequest : Provisioning.handler {} Kind.resource ∈ handlers {} := by simp [handlers]
  have hdatabase : databaseHandler {} ∈ handlers {} := by simp [handlers]
  have hcompleted : ∀ b : Books, Books.Step Reported b b.jobCompleted := fun b => .outside ⟨_, rfl⟩
  unfold troubledRun
  refine .trans ?_ (run_retried hdatabase _ _ _)
  refine .trans ?_ (run_retried hrequest _ _ _)
  exact .tail (run_retried hrequest _ _ _) (hcompleted _)

theorem troubledRun_closed : troubledRun.Closed := by
  have hopened : (Books.opened troubledCluster .empty).Closed := by simp [Books.Closed, Books.opened]
  have hcompleted : ∀ b : Books, b.Closed → b.jobCompleted.Closed := fun _ hb => hb
  unfold troubledRun
  refine closed_retried (closed_retried (hcompleted _ ?_) _ _ _) _ _ _
  exact closed_retried hopened _ _ _

theorem shaped_troubledCluster : Shaped troubledCluster := by
  have hshaped : ∀ entry ∈ troubledCluster.objects, entry.1.kind = .text Kind.service →
      SpecShaped entry.2 := by
    decide +kernel
  intro a v hv
  exact hshaped (a, v) (mem_objects_of_find? hv)

/-- One job was created, the request became ready once, and the endpoint was updated once, at the second
attempt. The counters say so. -/
theorem troubledRun_counted :
    troubledRun.registry.total (.childOperations Kind.job "create" "success") = 1 ∧
    troubledRun.registry.total (.childOperations Kind.service "update" "success") = 1 ∧
    troubledRun.registry.total (.drifts Kind.postgres Kind.service) = 2 ∧
    troubledRun.registry.total (.transitions Kind.resource "Ready") = 1 := by
  have htidy : Tidy troubledCluster := tidy_of_objects (by decide +kernel)
  obtain ⟨hcreated, hupdated, hdrifts, hentered⟩ :=
    counters_equal_writes htidy shaped_troubledCluster
      (fun _ _ h => ⟨renews_reported h, fun hshaped => hshaped.reported h⟩) troubledRun_reached
      troubledRun_closed
  -- the deeds of the run are counted by playing it out, and the counters equal them
  have hdeeds : troubledRun.deeds.countP (·.created Kind.job) = 1 ∧
      troubledRun.deeds.countP (·.updated Kind.service) = 1 ∧
      (troubledRun.deeds.countP fun d => d.kind = Kind.postgres && d.updates Kind.service) = 2 ∧
      troubledRun.deeds.countP (·.entered Kind.resource .ready) = 1 := by
    decide +kernel
  obtain ⟨hjob, hservice, hdrift, hready⟩ := hdeeds
  refine ⟨(hcreated _).trans ?_, hupdated.trans ?_, (hdrifts _).trans ?_, ?_⟩
  · rw [hjob]
    rfl
  · rw [hservice]
    rfl
  · rw [hdrift]
    rfl
  · exact (hentered Kind.resource (by decide) .ready).trans (by rw [hready]; rfl)

end Ledger

end Reconciler
