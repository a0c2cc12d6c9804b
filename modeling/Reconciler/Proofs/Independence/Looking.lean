import Reconciler.Proofs.Independence.Deeds
import Reconciler.Proofs.Secrecy.Lockstep

/-! # Programs that look before they write

A program looks first when it fetches nothing after its first write, replaces nothing after it either, and
never looks at what it is answered with when a write succeeds. What such a program does is settled by what is
stored at the addresses it calls: in another cluster that holds the same there it does the same, and so do two
of them in either order when neither writes where the other calls.

Main definitions and statements:

* `LooksFirst`: programs that look before they write, by induction on their questions;
* `Pass.Looks`: the same for passes, with one rule for each way a pass is built;
* `LooksFirst.deeds`: what such a program does in one cluster, it does in every cluster that holds the same;
* `LooksFirst.commute`: two of them that are independent may change places.
-/

namespace Reconciler

open Cluster

/-! ## Programs -/

/-- How far a program has come: it only looked so far, or it has begun to write. -/
inductive Phase where
  | looking | writing

/-- The writes that may come next: any of an object that is sent whole at first, and later creations only. -/
inductive Phase.Permits : Phase → StoreCall → Prop where
  | create (phase : Phase) (object : Value) : Permits phase (.create object)
  | update (object : Value) : Permits .looking (.update object)
  | updateStatus (object : Value) : Permits .looking (.updateStatus object)

/-- A program that fetches before it writes, and does not look at what its writes are answered with, other than
at failures. -/
inductive LooksFirst {α : Type} (post : Phase → α → Prop) : Phase → SafePass α → Prop where
  /-- It is finished. -/
  | done {phase : Phase} {a : α} : post phase a → LooksFirst post phase (.done a)
  /-- It asks something that does not concern the store. -/
  | aside {phase : Phase} {op : PassOp} {next : op.Answer → SafePass α} :
      (∀ call, op ≠ .store call) → (∀ reply, LooksFirst post phase (next reply)) →
      LooksFirst post phase (.ask (S := passSignature) op next)
  /-- It fetches. -/
  | fetch {kind ns name : Value} {next : Except Failure Value → SafePass α} :
      (∀ reply, LooksFirst post .looking (next reply)) →
      LooksFirst post .looking (.ask (S := passSignature) (.store (.get kind ns name)) next)
  /-- It writes. -/
  | write {phase : Phase} {call : StoreCall} {next : Except Failure Value → SafePass α} :
      phase.Permits call → (∀ v w, next (.ok v) = next (.ok w)) →
      (∀ reply, LooksFirst post .writing (next reply)) →
      LooksFirst post phase (.ask (S := passSignature) (.store call) next)

/-- A part that looks first, gone on with from where it comes to. -/
theorem LooksFirst.bind {α β : Type} {mid : Phase → α → Prop} {post : Phase → β → Prop}
    {phase : Phase} {p : SafePass α} {k : α → SafePass β} (h : LooksFirst mid phase p)
    (hk : ∀ phase a, mid phase a → LooksFirst post phase (k a)) : LooksFirst post phase (p >>= k) := by
  induction h with
  | done hmid => exact hk _ _ hmid
  | aside hop _ ih => exact .aside hop ih
  | fetch _ ih => exact .fetch ih
  | write hpermits hblind _ ih =>
    exact .write hpermits (fun v w => congrArg (Program.bind · k) (hblind v w)) ih

/-! ## Passes -/

namespace Pass

variable {α β : Type} {post : Phase → Except Failure α → Prop} {phase : Phase}

/-- A pass that looks before it writes. -/
abbrev Looks (post : Phase → Except Failure α → Prop) (phase : Phase) (p : Pass α) : Prop :=
  LooksFirst post phase p.run

/-- A pass that looks first and does not write, so that one may go on with it as before. -/
abbrev Stays (phase : Phase) (p : Pass α) : Prop := Looks (fun phase' _ => phase' = phase) phase p

/-- A pass looks first if its first part does, and the rest does from wherever the first part came to. -/
theorem looks_bind {mid : Phase → Except Failure β → Prop} {p : Pass β} {k : β → Pass α}
    (h : Looks mid phase p) (hok : ∀ phase b, mid phase (.ok b) → Looks post phase (k b))
    (herror : ∀ phase f, mid phase (.error f) → post phase (.error f)) : Looks post phase (p >>= k) := by
  refine LooksFirst.bind h ?_
  rintro phase (f | b) hmid
  · exact .done (herror phase f hmid)
  · exact hok phase b hmid

/-- Reading data is looking. -/
theorem looks_read {read : Except Fault β} {k : β → Pass α} (hok : ∀ b, Looks post phase (k b))
    (herror : ∀ f, post phase (.error f)) : Looks post phase (liftM read >>= k) := by
  cases read with
  | ok b => exact hok b
  | error f => exact .done (herror _)

theorem looks_tell (t : Trace) {k : Unit → Pass α} (hnext : Looks post phase (k ())) :
    Looks post phase (liftM (SafePass.trace t) >>= k) :=
  .aside nofun fun _ => hnext

theorem looks_now {k : Instant → Pass α} (hnext : ∀ now, Looks post phase (k now)) :
    Looks post phase (liftM SafePass.instant >>= k) :=
  .aside nofun hnext

theorem looks_liftRead (read : Except Fault α) (hpost : ∀ r, post phase r) :
    Looks post phase (liftM read : Pass α) := by
  cases read with
  | ok a => exact .done (hpost _)
  | error f => exact .done (hpost _)

/-- A part that does not write. -/
theorem looks_part {p : Pass β} {k : β → Pass α} (h : Stays phase p) (hok : ∀ b, Looks post phase (k b))
    (herror : ∀ f, post phase (.error f)) : Looks post phase (p >>= k) := by
  refine looks_bind h ?_ ?_
  · rintro _ b rfl
    exact hok b
  · rintro _ f rfl
    exact herror f

/-- A pass that only looks may be followed by one that looks first, also when its failure is looked at. -/
theorem looks_outcome {p : Pass β} {k : Except Failure β → Pass α} (h : Stays phase p)
    (hnext : ∀ r, Looks post phase (k r)) : Looks post phase (p.outcome >>= k) := by
  have houtcome : Looks (fun phase' r => phase' = phase ∧ ∃ r', r = .ok r') phase p.outcome := by
    refine LooksFirst.bind h ?_
    rintro _ r rfl
    exact .done ⟨rfl, r, rfl⟩
  refine looks_bind houtcome ?_ ?_
  · rintro _ r ⟨rfl, -⟩
    exact hnext r
  · rintro _ f ⟨-, r, hr⟩
    cases hr

/-- Writing a log line is looking. -/
theorem looks_note {kind : String} {level : Level} {metadata : Value} {r : Remark} {k : Unit → Pass α}
    (hnext : Looks post phase (k ())) (herror : ∀ f, post phase (.error f)) :
    Looks post phase (log kind level metadata r >>= k) := by
  have hlog : Stays phase (log kind level metadata r) := by
    unfold log
    exact looks_read (fun _ => .aside nofun fun _ => .done rfl) fun _ => rfl
  exact looks_part hlog (fun _ => hnext) herror

/-- A fetch whose failure is looked at. -/
theorem looks_attempt {kind : String} {ns name : Value} {k : Except Failure Value → Pass α}
    (hnext : ∀ reply, Looks post .looking (k reply)) :
    Looks post .looking ((Pass.get kind ns name).outcome >>= k) :=
  .fetch hnext

/-- A fetch that has to succeed. -/
theorem looks_fetch {kind : String} {ns name : Value} {k : Value → Pass α}
    (hnext : ∀ v, Looks post .looking (k v)) (herror : ∀ f, post .looking (.error f)) :
    Looks post .looking (Pass.get kind ns name >>= k) := by
  refine .fetch ?_
  rintro (f | v)
  · exact .done (herror f)
  · exact hnext v

/-- A write whose failure is looked at. -/
theorem looks_write {call : StoreCall} {k : Except Failure Value → Pass α} (hpermits : phase.Permits call)
    (hblind : ∀ v w, k (.ok v) = k (.ok w)) (hnext : ∀ reply, Looks post .writing (k reply)) :
    Looks post phase ((Pass.call call).outcome >>= k) :=
  .write hpermits hblind hnext

/-- A write that has to succeed. -/
theorem looks_must {call : StoreCall} {k : Pass α} (hpermits : phase.Permits call)
    (hnext : Looks post .writing k) (herror : ∀ f, post .writing (.error f)) :
    Looks post phase (Pass.call call >>= fun _ => k) := by
  refine .write hpermits (fun _ _ => rfl) ?_
  rintro (f | v)
  · exact .done (herror f)
  · exact hnext

/-- What is drawn does not concern the store. -/
theorem stays_draw (d : Draw β) : Stays phase (draw d) := by
  have hdrawn : ∀ {γ : Type} (p : Program randomSignature γ),
      LooksFirst (fun phase' _ => phase' = phase) phase
        (p.run fun op => Program.query (S := passSignature) (.random op)) := by
    intro γ p
    induction p with
    | done a => exact .done rfl
    | ask op next ih => exact .aside nofun ih
  refine (hdrawn d.run).bind ?_
  rintro _ (f | a) rfl
  · exact .done rfl
  · exact .done rfl

end Pass

/-! ## Writes that may come next -/

/-- What another cluster has to hold at an address for a program in some phase to go on the same. -/
def Phase.SameAt (c d : Cluster) (a : Address) : Phase → Prop
  | looking => d.find? a = c.find? a
  | writing => (d.find? a).isSome = (c.find? a).isSome

/-- What another cluster has to hold for a program in some phase to make some calls alike. -/
def Phase.SameFor (phase : Phase) (calls : List StoreCall) (c d : Cluster) : Prop :=
  ∀ call ∈ calls, ∀ a, call.addressed = .ok a → phase.SameAt c d a

namespace Phase

variable {phase : Phase} {c d : Cluster} {a : Address} {call : StoreCall}

/-- Where a cluster holds what it has to, a name is taken if it is taken here. -/
theorem SameAt.isSome (h : phase.SameAt c d a) : (d.find? a).isSome = (c.find? a).isSome := by
  cases phase with
  | looking => exact congrArg Option.isSome h
  | writing => exact h

theorem SameFor.refl (phase : Phase) (calls : List StoreCall) (c : Cluster) : phase.SameFor calls c c := by
  intro call _ a _
  cases phase <;> rfl

theorem SameFor.mono {calls more : List StoreCall} (h : phase.SameFor more c d)
    (hsub : ∀ call ∈ calls, call ∈ more) : phase.SameFor calls c d :=
  fun call hcall => h call (hsub call hcall)

/-- After a write it matters less what other clusters hold, and the same deed makes them no less alike. -/
theorem SameFor.later {calls : List StoreCall} (h : phase.SameFor calls c d) :
    writing.SameFor calls c d :=
  fun call hcall a ha => (h call hcall a ha).isSome

/-- The same deed leaves what a program has to find the same. -/
theorem SameFor.enacted {calls : List StoreCall} (h : writing.SameFor calls c d) (deed : Deed) :
    writing.SameFor calls (c.enacted deed) (d.enacted deed) := by
  intro call hcall a ha
  have hsame : (d.find? a).isSome = (c.find? a).isSome := h call hcall a ha
  simp only [SameAt, find?_enacted]
  split
  · rfl
  · exact hsame

theorem Permits.writes (h : phase.Permits call) : call.writes = true := by
  cases h <;> rfl

/-- A write that may come next is refused, or does the same deed, wherever its address is as it is here. -/
theorem Permits.deed (h : phase.Permits call) (c : Cluster) :
    (∃ f, ∀ d, phase.SameFor [call] c d → d.perform call = (.error f, d)) ∨
      ∃ deed : Deed, call.addressed = .ok deed.address ∧ ∀ d, phase.SameFor [call] c d →
        d.perform call = (.ok (deed.object (d.version + 1)), d.enacted deed) := by
  -- a creation depends on whether its name is taken, a replacement on what is stored
  cases h with
  | create phase object =>
    have htaken : ∀ d, phase.SameFor [.create object] c d → TakenFor object c d :=
      fun d hsame a ha => (hsame _ List.mem_cons_self a ha).isSome
    rcases create_local c object with ⟨f, hrefused⟩ | ⟨deed, haddr, hdone⟩
    · exact .inl ⟨f, fun d hsame => hrefused d (htaken d hsame)⟩
    · exact .inr ⟨deed, haddr, fun d hsame => hdone d (htaken d hsame)⟩
  | update object =>
    have hlocal := replaced_local c "update" object fun stored => do
      let status ← stored.fieldOrNull "status"
      object.setField "status" status
    simp only [perform, update_eq]
    rcases hlocal with ⟨f, hrefused⟩ | ⟨deed, haddr, hdone⟩
    · exact .inl ⟨f, fun d hsame => hrefused d (hsame _ List.mem_cons_self)⟩
    · exact .inr ⟨deed, haddr, fun d hsame => hdone d (hsame _ List.mem_cons_self)⟩
  | updateStatus object =>
    have hlocal := replaced_local c "update_status" object fun stored => do
      let status ← object.fieldOrNull "status"
      stored.setField "status" status
    simp only [perform, updateStatus_eq]
    rcases hlocal with ⟨f, hrefused⟩ | ⟨deed, haddr, hdone⟩
    · exact .inl ⟨f, fun d hsame => hrefused d (hsame _ List.mem_cons_self)⟩
    · exact .inr ⟨deed, haddr, fun d hsame => hdone d (hsame _ List.mem_cons_self)⟩

end Phase

/-! ## Courses -/

def Course.calls {σ α : Type} (run : Course σ α) : List StoreCall := run.heard.map (·.1)

/-- Two courses that come to the same, leave the same behind, and make the same calls. -/
structure SameCourse {α : Type} (run run' : Course Scene α) : Prop where
  result : run.result = run'.result
  left : run.left = run'.left
  calls : run.calls = run'.calls

/-- Circumstances in which every call is answered. -/
def Circumstances.FaultFree (circumstances : Circumstances) : Prop :=
  ∀ n call, circumstances.fate n call = .served

/-- Deeds of which each was done by a write among some calls. -/
def DoneBy (calls : List StoreCall) (deeds : List Deed) : Prop :=
  ∀ deed ∈ deeds, ∃ call ∈ calls, call.writes = true ∧ call.addressed = .ok deed.address

/-- Deeds were done by some calls, and one call more. -/
theorem DoneBy.cons {calls : List StoreCall} {deeds : List Deed} (h : DoneBy calls deeds)
    (call : StoreCall) : DoneBy (call :: calls) deeds := by
  intro deed hdeed
  obtain ⟨other, hother, hdone⟩ := h deed hdeed
  exact ⟨other, List.mem_cons_of_mem _ hother, hdone⟩

/-- A course in another cluster in which the same was done, by some deeds. -/
structure Redone {α : Type} (deeds : List Deed) (run : Course Scene α) (d : Cluster)
    (run' : Course Scene α) : Prop where
  same : SameCourse run run'
  cluster : run'.state.cluster = d.enact deeds

section Courses

variable {α β : Type} {circumstances : Circumstances} {source : Source} {c d : Cluster} {n : Nat}

/-- Questions that are asked alike, gone on with alike. -/
theorem Redone.andThen {first first' : Course Scene β} {rest rest' : Course Scene α} {deeds : List Deed}
    (hleft : first.left = first'.left) (hcalls : first.calls = first'.calls)
    (h : Redone deeds rest d rest') : Redone deeds (first.andThen rest) d (first'.andThen rest') := by
  refine ⟨⟨h.same.result, ?_, ?_⟩, h.cluster⟩
  · rw [Course.left_andThen, Course.left_andThen, hleft, h.same.left]
  · have hrest := h.same.calls
    simp only [Course.calls, Course.heard_andThen, List.map_append] at hcalls hrest ⊢
    rw [hcalls, hrest]

/-- What does not concern the store is answered alike in every cluster. -/
theorem exists_answer_aside (circumstances : Circumstances) (source : Source) {op : PassOp}
    (hop : ∀ call, op ≠ .store call) (n : Nat) :
    ∃ reply, ∀ c, Course.exchange (circumstances.facing source) op ⟨c, n⟩ =
      ⟨reply, ⟨c, n + 1⟩, [], op.leaves⟩ := by
  cases op with
  | store call => exact absurd rfl (hop call)
  | instant => exact ⟨circumstances.instant n, fun _ => rfl⟩
  | seconds => exact ⟨circumstances.seconds n, fun _ => rfl⟩
  | random op => exact ⟨source n op, fun _ => rfl⟩
  | trace t => exact ⟨(), fun _ => rfl⟩

/-- A call is answered by the cluster. -/
theorem exchange_store (hfree : circumstances.FaultFree) {call : StoreCall} {reply : Except Fault Value}
    (h : c.perform call = (reply, d)) :
    Course.exchange (circumstances.facing source) (.store call) ⟨c, n⟩ =
      ⟨reply.mapError fun f => ⟨f, none⟩, ⟨d, n + 1⟩,
        [(call, reply.mapError fun f => ⟨f, none⟩)], []⟩ := by
  simp only [Course.exchange, Circumstances.facing, hfree n call, Fate.outcome, reported, h]
  rfl

/-- What a program that looks first does in one cluster, it does in every cluster that holds the same where it
calls. -/
theorem LooksFirst.deeds {post : Phase → α → Prop} {phase : Phase} {p : SafePass α}
    (hp : LooksFirst post phase p) (hfree : circumstances.FaultFree) (source : Source) (c : Cluster)
    (n : Nat) :
    let run := p.course (circumstances.facing source) ⟨c, n⟩
    ∃ deeds, DoneBy run.calls deeds ∧ ∀ d, phase.SameFor run.calls c d →
      Redone deeds run d (p.course (circumstances.facing source) ⟨d, n⟩) := by
  induction hp generalizing c n with
  | done hpost => exact ⟨[], nofun, fun d _ => ⟨⟨rfl, rfl, rfl⟩, rfl⟩⟩
  | @aside phase op next hop _ ih =>
    obtain ⟨reply, hreply⟩ := exists_answer_aside circumstances source hop n
    obtain ⟨deeds, hdone, hredone⟩ := ih reply c (n + 1)
    simp only [SafePass.course, hreply]
    exact ⟨deeds, hdone, fun d hsame => .andThen rfl rfl (hredone d hsame)⟩
  | @fetch kind ns name next _ ih =>
    have hget : ∀ d : Cluster, d.perform (.get kind ns name) = ((d.get ⟨kind, ns, name⟩).1, d) :=
      fun d => Prod.ext rfl (get_snd d _)
    obtain ⟨deeds, hdone, hredone⟩ :=
      ih ((c.get ⟨kind, ns, name⟩).1.mapError fun f => ⟨f, none⟩) c (n + 1)
    simp only [SafePass.course, exchange_store hfree (hget _)]
    refine ⟨deeds, hdone.cons _, fun d hsame => ?_⟩
    have hfind : d.find? ⟨kind, ns, name⟩ = c.find? ⟨kind, ns, name⟩ := hsame _ List.mem_cons_self _ rfl
    rw [get_congr hfind]
    exact .andThen rfl rfl (hredone d (hsame.mono fun _ => List.mem_cons_of_mem _))
  | @write phase call next hpermits hblind _ ih =>
    have hfirst : ∀ {d : Cluster} {calls : List StoreCall}, phase.SameFor (call :: calls) c d →
        phase.SameFor [call] c d := fun hsame => hsame.mono (by simp)
    have hrest : ∀ {d : Cluster} {calls : List StoreCall}, phase.SameFor (call :: calls) c d →
        Phase.writing.SameFor calls c d := fun hsame =>
      (hsame.mono fun _ => List.mem_cons_of_mem _).later
    -- what a write comes to is not looked at, but it decides which deed was done
    rcases hpermits.deed c with ⟨f, hrefused⟩ | ⟨deed, haddr, hdone⟩
    · obtain ⟨deeds, hdone, hredone⟩ := ih (.error ⟨f, none⟩) c (n + 1)
      simp only [SafePass.course, exchange_store hfree (hrefused c (.refl phase _ c))]
      refine ⟨deeds, hdone.cons call, fun d hsame => ?_⟩
      rw [exchange_store hfree (hrefused d (hfirst hsame))]
      exact .andThen rfl rfl (hredone d (hrest hsame))
    · obtain ⟨deeds, hdone', hredone⟩ := ih (.ok (deed.object (c.version + 1))) (c.enacted deed) (n + 1)
      simp only [SafePass.course, exchange_store hfree (hdone c (.refl phase _ c))]
      refine ⟨deed :: deeds, ?_, fun d hsame => ?_⟩
      · intro other hother
        rcases List.mem_cons.mp hother with rfl | hother
        · exact ⟨call, List.mem_cons_self, hpermits.writes, haddr⟩
        · exact hdone'.cons call other hother
      · rw [exchange_store hfree (hdone d (hfirst hsame))]
        refine .andThen rfl rfl ?_
        -- the reply has another number there, but it is not looked at
        change Redone _ _ d ((next (.ok (deed.object (d.version + 1)))).course
          (circumstances.facing source) ⟨d.enacted deed, n + 1⟩)
        rw [hblind (deed.object (d.version + 1)) (deed.object (c.version + 1))]
        have hnext := hredone _ ((hrest hsame).enacted deed)
        exact ⟨hnext.same, hnext.cluster⟩

/-- Some calls do not write where others call. -/
def Clear (calls others : List StoreCall) : Prop :=
  ∀ call ∈ calls, call.writes = true → ∀ a, call.addressed = .ok a →
    ∀ other ∈ others, other.addressed ≠ .ok a

/-- Deeds of calls that are clear of others leave what the others have to find the same. -/
theorem Clear.sameFor {calls others : List StoreCall} (h : Clear calls others) {deeds : List Deed}
    (hdone : DoneBy calls deeds) (c : Cluster) : Phase.looking.SameFor others c (c.enact deeds) := by
  intro other hother a ha
  refine find?_enact_of_ne ?_ c
  rintro deed hdeed rfl
  obtain ⟨call, hcall, hwrites, haddr⟩ := hdone deed hdeed
  exact h call hcall hwrites _ haddr other hother ha

/-- Deeds of calls that are clear of each other are done at different addresses. -/
theorem DoneBy.address_ne {calls others : List StoreCall} (hclear : Clear calls others)
    {deeds more : List Deed} (hdeeds : DoneBy calls deeds) (hmore : DoneBy others more) :
    ∀ deed ∈ deeds, ∀ other ∈ more, deed.address ≠ other.address := by
  intro deed hdeed other hother heq
  obtain ⟨call, hcall, hwrites, haddr⟩ := hdeeds deed hdeed
  obtain ⟨call', hcall', -, haddr'⟩ := hmore other hother
  exact hclear call hcall hwrites _ haddr call' hcall' (heq ▸ haddr')

/-- Two programs that look first, of which neither writes where the other calls, may change places: each has
the course that it has alone, and what is stored in the end is the same but for numbers. -/
theorem LooksFirst.commute {β : Type} {post : Phase → α → Prop} {post' : Phase → β → Prop}
    {p : SafePass α} {q : SafePass β} (hp : LooksFirst post .looking p) (hq : LooksFirst post' .looking q)
    (hfree : circumstances.FaultFree) {source source' : Source} (c : Cluster) :
    let first (d : Cluster) := p.course (circumstances.facing source) ⟨d, 0⟩
    let second (d : Cluster) := q.course (circumstances.facing source') ⟨d, 0⟩
    Clear (first c).calls (second c).calls → Clear (second c).calls (first c).calls →
    let afterFirst := (first c).state.cluster
    let afterSecond := (second c).state.cluster
    SameCourse (first c) (first afterSecond) ∧ SameCourse (second c) (second afterFirst) ∧
      SameButNumbers c (second afterFirst).state.cluster (first afterSecond).state.cluster := by
  intro first second hclear hclear' afterFirst afterSecond
  obtain ⟨deeds, hdone, hredone⟩ := hp.deeds hfree source c 0
  obtain ⟨more, hdone', hredone'⟩ := hq.deeds hfree source' c 0
  have hfirst : afterFirst = c.enact deeds := (hredone c (.refl _ _ c)).cluster
  have hsecond : afterSecond = c.enact more := (hredone' c (.refl _ _ c)).cluster
  -- the deeds of either program leave what the other one looks at as it was
  have hagain := hredone afterSecond (hsecond ▸ hclear'.sameFor hdone' c)
  have hagain' := hredone' afterFirst (hfirst ▸ hclear.sameFor hdone c)
  refine ⟨hagain.same, hagain'.same, ?_⟩
  rw [hagain.cluster, hagain'.cluster, hfirst, hsecond]
  exact sameButNumbers_enact c (hdone.address_ne hclear hdone')

end Courses

end Reconciler
