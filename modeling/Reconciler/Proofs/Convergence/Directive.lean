import Reconciler.Proofs.Convergence.Children
import Reconciler.Proofs.Reads
import Reconciler.Proofs.Schedule
import Mathlib.Data.List.Forall2

/-! # The directive tells the truth

A pass over a resource that consists of tiers writes once at most, and nothing follows the write. What
it says in the end, it says of its history: it is done when it fetched every child and found no drift, it
pauses after an update, it comes back at once after a create or a conflict, and when it reports a failure
it changed nothing. All this holds whatever the store answers.

Main definitions and statements:

* `heard`: a store that may answer anything, as long as it does not mistake one kind for another;
* `Tells`: what a directive says about the history of its pass;
* `walk_accounts`: what a pass leaves behind, by induction on its tiers;
* `one_write_and_true_directive`: the result for both kinds of parents.
-/

namespace Reconciler

/-! ## Histories by what was written -/

namespace History

/-- Nothing was written or tried to be written. -/
def Silent (h : History) : Prop :=
  ∀ e ∈ h, e.1.writes = false

def Unwritten (h : History) : Prop :=
  ∀ e ∈ h, e.1.writes = true → ∃ f, e.2 = .error f

/-- A write comes last, and it is a create or an update. -/
def WritesLast (h : History) : Prop :=
  ∀ before e after, h = before ++ e :: after → e.1.writes = true →
    after = [] ∧ ((∃ object, e.1 = .create object) ∨ ∃ object, e.1 = .update object)

variable {h : History} {call : StoreCall} {reply : Except Failure Value}

@[simp] theorem silent_nil : Silent [] := by simp [Silent]

theorem silent_append : Silent (h ++ [(call, reply)]) ↔ h.Silent ∧ call.writes = false := by
  simp only [Silent, List.mem_append, List.mem_singleton]
  constructor
  · intro hall
    exact ⟨fun e he => hall e (.inl he), hall _ (.inr rfl)⟩
  · rintro ⟨hold, hnew⟩ e (he | rfl)
    · exact hold e he
    · exact hnew

theorem Silent.unwritten (hs : h.Silent) : h.Unwritten := by
  intro e he hwrites
  have hnot := hs e he
  simp [hnot] at hwrites

/-- A call that failed wrote nothing. -/
theorem Silent.unwritten_append {f : Failure} (hs : h.Silent) :
    Unwritten (h ++ [(call, .error f)]) := by
  intro e he hwrites
  rcases List.mem_append.mp he with he | he
  · exact hs.unwritten e he hwrites
  · obtain rfl := List.mem_singleton.mp he
    exact ⟨f, rfl⟩

/-- Whatever follows a history without a write, it is last. -/
theorem Silent.writesLast_append (hs : h.Silent)
    (hcall : call.writes = true → (∃ object, call = .create object) ∨ ∃ object, call = .update object) :
    WritesLast (h ++ [(call, reply)]) := by
  intro before e after hsplit hwrites
  rcases List.append_eq_append_iff.mp hsplit with ⟨rest, rfl, hrest⟩ | ⟨rest, hold, hrest⟩
  · -- the write is the new call
    cases rest with
    | nil =>
      rcases List.cons.inj hrest with ⟨rfl, rfl⟩
      exact ⟨rfl, hcall hwrites⟩
    | cons x rest => simp at hrest
  · cases rest with
    | nil =>
      rcases List.cons.inj hrest with ⟨rfl, rfl⟩
      exact ⟨rfl, hcall hwrites⟩
    | cons x rest =>
      -- no write was made before
      rcases List.cons.inj hrest with ⟨rfl, -⟩
      have hnot := hs e (by simp [hold])
      simp [hnot] at hwrites

end History

namespace Convergence

/-! ## Any store -/

/-- An answer that a store may give: what it fetches, and what it reports missing, is of the kind that the
call is about. -/
structure Truthful (call : StoreCall) (reply : Except Failure Value) : Prop where
  fetched : ∀ kind ns name object, call = .get kind ns name → reply = .ok object →
    object.field? "kind" = some kind
  missing : ∀ f kind ns name, reply = .error f → f.fault = .notFound kind ns name →
    call.kind = .ok kind

/-- A store that gives such answers and is otherwise free to answer anything, any time. -/
def heard : Answering History :=
  fun h call reply h' => Truthful call reply ∧ h' = h ++ [(call, reply)]

/-- A pass may make a call as long as it wrote nothing, and what it writes is a child. -/
def MayCall (h : History) (call : StoreCall) : Prop :=
  h.Silent ∧ (call.writes = true → (∃ object, call = .create object) ∨ ∃ object, call = .update object)

/-! ## What a directive says -/

/-- A tier that was fetched and has not drifted from what is wanted. -/
def Settled (ns : Value) (tier : Tier) (e : StoreCall × Except Failure Value) : Prop :=
  ∃ existing, e = (.get (.text tier.kind) ns tier.childName, .ok existing) ∧
    ∀ drift, tier.drift = some drift →
      ∃ wanted, tier.build = pure wanted ∧ drift existing wanted = .ok []

/-- The parent was fetched, and then these tiers of it, each without drift. -/
def Passed (kind : String) (id : Identity) (parent : Value) (tiers : List Tier) (h : History) : Prop :=
  ∃ fetches, h = (.get (.text kind) id.ns id.name, .ok parent) :: fetches ∧
    List.Forall₂ (Settled id.ns) tiers fetches

/-- What a directive says about the history of its pass. -/
def Tells (kind : String) (tiers : Value → Except Fault (List Tier)) (id : Identity) (h : History) :
    Directive → Prop
  | .done => h.Silent ∧
    ((∃ f : Failure, h = [(.get (.text kind) id.ns id.name, .error f)] ∧
        f.belongsTo .notFound = true) ∨
      ∃ parent all, tiers parent = .ok all ∧ Passed kind id parent all h)
  | .requeueAfter _ =>
    ∃ (before : History) (object stored : Value),
      h = before ++ [(.update object, .ok stored)] ∧ before.Silent
  | .requeueNow =>
    (∃ (before : History) (object stored : Value),
      h = before ++ [(.create object, .ok stored)] ∧ before.Silent) ∨
    ((∃ (call : StoreCall) (f : Failure), (call, .error f) ∈ h ∧ f.belongsTo .conflict = true) ∧
      h.Unwritten)
  | .failed _ => h.Unwritten

/-- What the history says of the result of a pass before it is read as a directive. A failure that
belongs to the store was heard, and only the fetch of the parent reports the parent missing. -/
def Accounts (handler : Handler) (tiers : Value → Except Fault (List Tier)) (id : Identity)
    (h : History) : Except Failure Directive → Prop
  | .ok directive => Tells handler.kind tiers id h directive
  | .error f => h.Unwritten ∧
    (f.belongsTo .store = true → ∃ call, (call, .error f) ∈ h) ∧
    (handler.missesItself id f = true →
      h = [(.get (.text handler.kind) id.ns id.name, .error f)])

/-! ## Failures -/

section Failures

variable {handler : Handler} {tiers : Value → Except Fault (List Tier)} {id : Identity}
variable {h : History} {call : StoreCall} {f : Failure}

/-- A parent that is missing was reported missing, under its kind. -/
theorem of_missesItself (hself : handler.missesItself id f = true) :
    f.belongsTo .notFound = true ∧
      ∃ ns name, f.fault = .notFound (.text handler.kind) ns name := by
  unfold Handler.missesItself at hself
  cases hfault : f.fault with
  | notFound kind ns name =>
    simp only [hfault, Bool.and_eq_true] at hself
    have hkind : kind = .text handler.kind := by
      cases kind with
      | text s => simpa [Value.isText] using hself.1.1
      | _ => simp [Value.isText] at hself
    rw [hkind]
    exact ⟨by rw [Failure.belongsTo, hfault]; rfl, ns, name, rfl⟩
  | _ => simp [hfault] at hself

/-- The directive of a pass says no more than its history accounts for. -/
theorem Accounts.tells {result : Except Failure Directive}
    (haccounts : Accounts handler tiers id h result) :
    Tells handler.kind tiers id h (handler.directiveOf id result) := by
  cases result with
  | ok directive => exact haccounts
  | error f =>
    rcases haccounts with ⟨hunwritten, hheard, hmissing⟩
    rw [Handler.directiveOf]
    -- the three ways a failure is read
    by_cases hself : handler.missesItself id f = true
    · have hfirst := hmissing hself
      subst hfirst
      rw [if_pos hself]
      exact ⟨by simp [History.Silent, StoreCall.writes], .inl ⟨f, rfl, (of_missesItself hself).1⟩⟩
    · rw [if_neg hself]
      by_cases hconflict : f.belongsTo .conflict = true
      · have hstore : f.belongsTo .store = true := Fault.belongsTo_of_ancestry hconflict (by decide)
        rcases hheard hstore with ⟨call, hcall⟩
        rw [if_pos hconflict]
        exact .inr ⟨⟨call, f, hcall, hconflict⟩, hunwritten⟩
      · rw [if_neg hconflict]
        exact hunwritten

/-- A failure of the pass itself is neither a conflict nor about a missing parent. -/
theorem accounts_own (tiers : Value → Except Fault (List Tier)) {fault : Fault} (hs : h.Silent)
    (hfault : fault.class? = none) :
    Accounts handler tiers id h (.error ⟨fault, none⟩) := by
  have hnot : ¬ (Failure.belongsTo ⟨fault, none⟩ .store = true) := by
    simp [Failure.belongsTo, Fault.belongsTo_of_classless hfault]
  refine ⟨hs.unwritten, ?_, ?_⟩
  · intro hstore
    exact absurd hstore hnot
  · intro hself
    have hnotFound := (of_missesItself hself).1
    exact absurd (Fault.belongsTo_of_ancestry hnotFound (by decide)) hnot

/-- A failed call about a child does not report the parent missing. -/
theorem accounts_heard (tiers : Value → Except Fault (List Tier)) {kind : String} (hs : h.Silent)
    (htruthful : Truthful call (.error f)) (hkind : call.kind = .ok (.text kind)) (hne : kind ≠ handler.kind) :
    Accounts handler tiers id (h ++ [(call, .error f)]) (.error f) := by
  refine ⟨hs.unwritten_append, fun _ => ⟨call, by simp⟩, ?_⟩
  intro hself
  rcases of_missesItself hself with ⟨-, ns, name, hfault⟩
  have hcall : call.kind = .ok (.text handler.kind) := htruthful.missing f _ ns name rfl hfault
  have hsame : kind = handler.kind := by simpa [hkind] using hcall
  exact absurd hsame hne

end Failures

/-! ## The tiers of a pass -/

/-- A tier whose reads fail without a class, and that makes objects of its own kind, which is not the kind
of its parent. -/
structure Modest (parentKind : String) (tier : Tier) : Prop where
  kind_ne : tier.kind ≠ parentKind
  build : ∀ {σ : Type} {answers : Answering σ} {may : σ → StoreCall → Prop}
    {post : σ → Except Failure Value → Prop} {s : σ},
    (∀ m, IsChild tier.kind m → post s (.ok m)) →
    (∀ f : Fault, f.class? = none → post s (.error ⟨f, none⟩)) →
    Pass.Ensures answers may post tier.build s
  compare : ∀ drift, tier.drift = some drift →
    (∃ read, tier.build = Pass.lift read ∧ Classless read) ∧
      ∀ existing wanted, Classless (drift existing wanted)

/-- A read can be the build of a tier. -/
theorem build_of_gives {kind : String} {read : Except Fault Value} (h : Gives (IsChild kind) read)
    {σ : Type} {answers : Answering σ} {may : σ → StoreCall → Prop}
    {post : σ → Except Failure Value → Prop} {s : σ}
    (hok : ∀ m, IsChild kind m → post s (.ok m))
    (herror : ∀ f : Fault, f.class? = none → post s (.error ⟨f, none⟩)) :
    Pass.Ensures answers may post (Pass.lift read) s := by
  rw [Pass.ensures_lift]
  cases read with
  | ok m => exact hok m h
  | error f => exact herror f h

/-- A tier that reads what it builds off the parent makes objects of its own kind. -/
theorem Modest.of_gives {parentKind name kind : String} {childName : Value}
    {read : Except Fault Value} (hne : kind ≠ parentKind) (h : Gives (IsChild kind) read) :
    Modest parentKind { name, kind, childName, build := Pass.lift read } := by
  refine ⟨hne, build_of_gives h, ?_⟩
  intro drift hdrift
  cases hdrift

/-- The tier of an endpoint. -/
theorem Modest.of_endpoint {parentKind name kind : String} {childName : Value}
    {read : Except Fault Value} (hne : kind ≠ parentKind) (h : Gives (IsChild kind) read) :
    Modest parentKind
      { name, kind, childName, build := Pass.lift read, drift := some Manifest.exposureDrift } := by
  refine ⟨hne, build_of_gives h, ?_⟩
  rintro _ ⟨⟩
  exact ⟨⟨read, rfl, h.classless⟩, Manifest.classless_exposureDrift⟩

/-- The tier of a credential. -/
theorem Modest.of_credential {parentKind name : String} {parent childName : Value}
    (hne : Kind.secret ≠ parentKind) :
    Modest parentKind
      { name, kind := Kind.secret, childName, build := buildCredential parent } := by
  constructor
  · exact hne
  · intro σ answers may post s hok herror
    rw [buildCredential, Pass.ensures_bind]
    refine draw_ensures ?_
    intro password
    exact build_of_gives (Manifest.gives_secret parent _) hok herror
  · intro drift hdrift
    cases hdrift

/-- The tiers of services and databases are such tiers. -/
theorem tiers_modest (family : Family) (images : Images) (parent : Value) :
    Gives (fun all => ∀ tier ∈ all, Modest family.kind tier) (family.tiers images parent) := by
  cases family with
  | database =>
    apply (Manifest.classless_nameOf parent).andThen
    intro name
    apply (Manifest.classless_credentialName parent).andThen
    intro secret
    simp only [gives_pure, List.forall_mem_cons, List.not_mem_nil, false_imp_iff, implies_true,
      and_true]
    -- for every tier, its kind is not that of the parent and what it reads fails without a class
    refine ⟨.of_gives (by decide) ?_, .of_credential (by decide), .of_gives (by decide) ?_,
      .of_endpoint (by decide) ?_⟩
    · exact Manifest.gives_databaseClaim parent (Manifest.classless_nameOf parent) _
    · exact Manifest.gives_postgresDeployment parent images
    · exact Manifest.gives_postgresService parent
  | service =>
    have hnamed := Manifest.classless_named parent
    apply (Manifest.classless_nameOf parent).andThen
    intro name
    apply (hnamed _).andThen
    intro database
    apply (hnamed _).andThen
    intro keycloak
    apply (Manifest.classless_credentialName parent).andThen
    intro secret
    apply (hnamed _).andThen
    intro web
    apply (hnamed _).andThen
    intro gateway
    simp only [gives_pure, List.forall_mem_cons, List.not_mem_nil, false_imp_iff, implies_true,
      and_true]
    refine ⟨.of_gives (by decide) ?_, .of_credential (by decide), .of_gives (by decide) ?_,
      .of_endpoint (by decide) ?_, .of_gives (by decide) ?_, .of_endpoint (by decide) ?_,
      .of_gives (by decide) ?_, .of_endpoint (by decide) ?_, .of_endpoint (by decide) ?_⟩
    · exact Manifest.gives_databaseClaim parent (hnamed _) _
    · exact Manifest.gives_databaseDeployment parent images
    · exact Manifest.gives_databaseService parent
    · exact Manifest.gives_keycloakDeployment parent images
    · exact Manifest.gives_keycloakService parent
    · exact Manifest.gives_server parent images
    · exact Manifest.gives_webService parent
    · exact Manifest.gives_gatewayService parent

section Passes

variable {settings : Settings} {kind : String} {id : Identity} {parent : Value}
variable {tiers : Value → Except Fault (List Tier)} {tier : Tier} {h : History}

/-- What is asked of a pass: at most one write, and a result that its history accounts for. -/
abbrev Truly (settings : Settings) (kind : String) (tiers : Value → Except Fault (List Tier))
    (id : Identity) (p : Pass Directive) (h : History) : Prop :=
  Pass.Ensures heard MayCall (Accounts (handler settings kind tiers) tiers id) p h

/-- A read of a pass that has written nothing. -/
theorem truly_read {α : Type} {read : Except Fault α} {k : α → Pass Directive} (hs : h.Silent)
    (hread : Classless read)
    (hnext : ∀ a, read = .ok a → Truly settings kind tiers id (k a) h) :
    Truly settings kind tiers id (liftM read >>= k) h := by
  apply Pass.ensures_read hnext
  intro f hf
  exact accounts_own tiers hs (hread.of_error hf)

/-- A note of a pass that has written nothing. -/
theorem truly_note {level : Level} {metadata : Value} {r : Remark} {k : Unit → Pass Directive}
    {parentKind : String} (hs : h.Silent) (hnext : Truly settings kind tiers id (k ()) h) :
    Truly settings kind tiers id (Pass.log parentKind level metadata r >>= k) h := by
  apply Pass.ensures_note hnext
  intro f hf
  exact accounts_own tiers hs ((classless_loggedIdentity metadata).of_error hf)

/-- A pass that wrote nothing and creates a child ends with a result that its history accounts for. -/
theorem create_accounts (hmodest : Modest kind tier) (hs : h.Silent) :
    Truly settings kind tiers id (create kind parent tier) h := by
  unfold create
  refine truly_read hs (parent.classless_fieldOr _ _) (fun metadata _ => ?_)
  refine Pass.ensures_tell ?_
  rw [Pass.ensures_bind]
  refine hmodest.build (fun manifest hmanifest => ?_) (fun f hf => accounts_own tiers hs hf)
  refine truly_note hs ?_
  refine Pass.ensures_attempt ⟨hs, fun _ => .inl ⟨manifest, rfl⟩⟩ ?_
  rintro (f | created) h' ⟨htruthful, rfl⟩
  · by_cases htaken : f.belongsTo .alreadyExists = true
    · -- a lost race is a conflict
      have hconflict : f.belongsTo .conflict = true := Fault.belongsTo_of_ancestry htaken (by decide)
      simp only [htaken, if_true]
      refine Pass.ensures_tell (.inr ⟨?_, hs.unwritten_append⟩)
      exact ⟨.create manifest, f, by simp, hconflict⟩
    · have hkind : (StoreCall.create manifest).kind = .ok (.text tier.kind) :=
        Value.require_eq_ok.mpr hmanifest.ofKind
      simp only [htaken]
      exact Pass.ensures_tell (accounts_heard tiers hs htruthful hkind hmodest.kind_ne)
  · refine Pass.ensures_tell (Pass.ensures_tell (.inl ?_))
    exact ⟨h, manifest, created, rfl, hs⟩

/-- A pass that wrote nothing and corrects a child ends with a result that its history accounts for. -/
theorem patch_accounts (hcooldown : 0 < settings.cooldown) (hne : tier.kind ≠ kind)
    {existing : Value} {changes : Fields} (hexisting : OfKind tier.kind existing) (hs : h.Silent) :
    Truly settings kind tiers id (patch settings kind parent tier existing changes) h := by
  have happly := gives_applyChanges existing changes
  unfold patch
  refine Pass.ensures_tell ?_
  refine truly_read hs (parent.classless_fieldOr _ _) (fun metadata _ => ?_)
  refine Pass.ensures_tell ?_
  refine truly_note hs ?_
  refine truly_read hs happly.classless (fun changed hchanged => ?_)
  have hkind : OfKind tier.kind changed := (happly.of_ok hchanged "kind" (by decide)).trans hexisting
  refine Pass.ensures_attempt ⟨hs, fun _ => .inr ⟨changed, rfl⟩⟩ ?_
  rintro (f | updated) h' ⟨htruthful, rfl⟩
  · -- a refused write is a conflict, or a failure that is told as it was heard
    by_cases hconflict : f.belongsTo .conflict = true
    · simp only [hconflict, if_true]
      refine Pass.ensures_tell (.inr ⟨?_, hs.unwritten_append⟩)
      exact ⟨.update changed, f, by simp, hconflict⟩
    · simp only [hconflict]
      exact Pass.ensures_tell (accounts_heard tiers hs htruthful (Value.require_eq_ok.mpr hkind) hne)
  · refine Pass.ensures_tell (Pass.ensures_tell ?_)
    rw [Pass.ensures_liftRead, Directive.after_of_pos hcooldown]
    exact ⟨h, changed, updated, rfl, hs⟩

/-- A pass that found its children without drift has not written. -/
theorem Passed.silent {before : List Tier} (hpassed : Passed kind id parent before h) :
    h.Silent := by
  rcases hpassed with ⟨fetches, rfl, hsettled⟩
  have hfetches : History.Silent fetches := by
    -- the fetches of the tiers, one after the other
    induction hsettled with
    | nil => exact History.silent_nil
    | cons hfirst _ ih =>
      rcases hfirst with ⟨existing, rfl, -⟩
      intro e he
      rcases List.mem_cons.mp he with rfl | he
      · rfl
      · exact ih e he
  intro e he
  rcases List.mem_cons.mp he with rfl | he
  · rfl
  · exact hfetches e he

/-- One more tier that was fetched and has not drifted. -/
theorem Passed.snoc {before : List Tier} (hpassed : Passed kind id parent before h)
    {e : StoreCall × Except Failure Value} (hsettled : Settled id.ns tier e) :
    Passed kind id parent (before ++ [tier]) (h ++ [e]) := by
  rcases hpassed with ⟨fetches, rfl, hbefore⟩
  exact ⟨fetches ++ [e], rfl, List.rel_append hbefore (.cons hsettled .nil)⟩

/-- A pass that has got to some tier goes on truly. -/
theorem walk_accounts (hcooldown : 0 < settings.cooldown) (before rest : List Tier)
    (htiers : tiers parent = .ok (before ++ rest)) (hmodest : ∀ tier ∈ rest, Modest kind tier)
    (hpassed : Passed kind id parent before h) :
    Truly settings kind tiers id (walk settings kind id parent rest) h := by
  have hs := hpassed.silent
  induction rest generalizing h before with
  | nil =>
    unfold walk
    refine truly_read hs (parent.classless_fieldOr _ _) (fun metadata _ => ?_)
    refine truly_note hs ?_
    exact ⟨hs, .inr ⟨parent, before, by simpa using htiers, hpassed⟩⟩
  | cons tier rest ih =>
    have htier : Modest kind tier := hmodest tier (by simp)
    -- fetching a child is no write, whatever comes back
    have hs' : ∀ reply, History.Silent (h ++ [(.get (.text tier.kind) id.ns tier.childName, reply)]) :=
      fun reply => History.silent_append.mpr ⟨hs, rfl⟩
    have hnext : ∀ existing, (∀ drift, tier.drift = some drift →
          ∃ wanted, tier.build = pure wanted ∧ drift existing wanted = .ok []) →
        Truly settings kind tiers id (walk settings kind id parent rest)
          (h ++ [(.get (.text tier.kind) id.ns tier.childName, .ok existing)]) := by
      intro existing hsame
      refine ih (before ++ [tier]) (by simpa using htiers) (fun t ht => hmodest t (by simp [ht])) ?_
        (hs' _)
      exact hpassed.snoc ⟨existing, rfl, hsame⟩
    unfold walk
    refine Pass.ensures_attempt ⟨hs, by simp [StoreCall.writes]⟩ ?_
    rintro (f | existing) h' ⟨htruthful, rfl⟩
    · dsimp only
      -- a missing child is created, any other failure ends the pass
      split
      · exact create_accounts htier (hs' _)
      · exact accounts_heard tiers hs htruthful rfl htier.kind_ne
    · have hexisting : OfKind tier.kind existing := htruthful.fetched _ _ _ existing rfl rfl
      cases hdrift : tier.drift with
      | none => exact hnext existing (by simp [hdrift])
      | some drift =>
        rcases htier.compare drift hdrift with ⟨⟨read, hbuild, hread⟩, hcompare⟩
        dsimp only
        rw [hbuild]
        refine truly_read (hs' _) hread (fun wanted hwanted => ?_)
        refine truly_read (hs' _) (hcompare existing wanted) (fun changes hchanges => ?_)
        by_cases hempty : changes.isEmpty = true
        · rw [if_pos hempty]
          refine hnext existing ?_
          intro drift' hdrift'
          obtain rfl : drift = drift' := Option.some.inj (hdrift.symm.trans hdrift')
          -- what is compared with was built without asking anything
          refine ⟨wanted, by rw [hbuild, hwanted]; rfl, ?_⟩
          rw [hchanges, List.isEmpty_iff.mp hempty]
        · rw [if_neg hempty]
          exact patch_accounts hcooldown htier.kind_ne hexisting (hs' _)

/-- A pass over a parent accounts for what it did. -/
theorem converge_accounts (hcooldown : 0 < settings.cooldown)
    (hmodest : ∀ parent, Gives (fun all => ∀ tier ∈ all, Modest kind tier) (tiers parent)) :
    Truly settings kind tiers id (converge settings kind tiers id) [] := by
  unfold converge
  refine Pass.ensures_must ⟨History.silent_nil, by simp [StoreCall.writes]⟩ ?_ ?_
  · rintro parent h ⟨-, rfl⟩
    have hpassed : Passed kind id parent [] ([] ++ [(.get (.text kind) id.ns id.name, .ok parent)]) :=
      ⟨[], rfl, .nil⟩
    refine truly_read hpassed.silent (parent.classless_fieldOr _ _) (fun metadata _ => ?_)
    refine truly_read hpassed.silent (hmodest parent).classless (fun all hall => ?_)
    exact walk_accounts hcooldown [] all hall ((hmodest parent).of_ok hall) hpassed
  · -- without a parent nothing else is asked
    rintro f h ⟨-, rfl⟩
    refine ⟨History.silent_nil.unwritten_append, ?_, ?_⟩
    · intro _
      exact ⟨_, List.mem_append_right _ List.mem_cons_self⟩
    · intro _
      rfl

end Passes

/-! ## Both kinds of parents -/

/-- However the store answers the calls of a pass over a service or a database: a write is the last call of
the pass and is a create or an update, and when the pass is finished, its history is as its directive
says. -/
theorem one_write_and_true_directive (family : Family) {settings settings' : Settings}
    (hcooldown : 0 < settings.cooldown) (id : Identity) {rest : SafePass Directive} {h : History}
    (hrun : Program.Leads (facing heard) ((family.handler settings).reconcile settings' id) [] rest h) :
    h.WritesLast ∧
      ∀ d, rest = .done d → Tells family.kind (family.tiers settings.images) id h d := by
  have hpass : SafePass.Ensures heard MayCall (Tells family.kind (family.tiers settings.images) id)
      ((family.handler settings).reconcile settings' id) [] := by
    refine (Handler.reconcile_ensures settings' _ id []).mpr ?_
    -- the walk accounts for its result, and the handler reads its directive off that result
    have hconverge : Truly settings family.kind (family.tiers settings.images) id
        (converge settings family.kind (family.tiers settings.images) id) [] :=
      converge_accounts hcooldown (tiers_modest family settings.images)
    cases family with
    | service => exact Pass.Ensures.mono hconverge (fun _ _ hcall => hcall) fun _ _ => Accounts.tells
    | database => exact Pass.Ensures.mono hconverge (fun _ _ hcall => hcall) fun _ _ => Accounts.tells
  constructor
  · -- a pass only calls while it has not written, so a write is never followed by a call
    have hfirst : History.WritesLast [] := by simp [History.WritesLast]
    refine hpass.invariant hrun hfirst ?_
    rintro h call reply h' - ⟨hsilent, hcall⟩ ⟨-, rfl⟩
    exact hsilent.writesLast_append hcall
  · rintro d rfl
    exact Program.Ensures.of_leads hpass hrun

/-! ### A lost race -/

/-- A store that has everything but Secrets, and in which all names are taken. -/
def takenReply : StoreCall → Except Failure Value
  | .get kind ns name =>
    if kind = .text Kind.secret then .error ⟨.notFound kind ns name, none⟩
    else .ok (.object [("apiVersion", .text "v1"), ("kind", kind),
      ("metadata", .object [("name", name), ("namespace", ns)])])
  | _ => .error ⟨.alreadyExists "already exists", none⟩

/-- The answers of this store, with the history they leave. -/
def takenAnswer : (op : PassOp) → StateM History op.Answer
  | .store call => fun h => (takenReply call, h ++ [(call, takenReply call)])
  | op => fun h => ((Cluster.empty.answered op).1, h)

/-- The store in which all names are taken gives truthful answers. -/
theorem truthful_takenReply (call : StoreCall) : Truthful call (takenReply call) := by
  cases call with
  | get kind ns name =>
    -- only a fetch can be answered by something missing, and only Secrets are
    by_cases hsecret : kind = .text Kind.secret
    · rw [takenReply, if_pos hsecret]
      constructor
      · rintro _ _ _ object - ⟨⟩
      · rintro f kind' ns' name' ⟨⟩ ⟨⟩
        rfl
    · rw [takenReply, if_neg hsecret]
      constructor
      · rintro _ _ _ object ⟨⟩ ⟨⟩
        rfl
      · rintro f kind' ns' name' ⟨⟩
  | _ =>
    constructor
    · rintro _ _ _ object ⟨⟩
    · rintro f kind' ns' name' ⟨⟩ ⟨⟩

/-- A pass that faces this store faces truthful answers. -/
theorem facing_takenAnswer (h : History) (op : PassOp) :
    facing heard h op (takenAnswer op h).1 (takenAnswer op h).2 := by
  cases op with
  | store call => exact ⟨truthful_takenReply call, rfl⟩
  | random op => exact ⟨(Cluster.empty.facing_answered (.random op)).1, rfl⟩
  | instant | seconds | trace => rfl

/-- A pass that loses the race for the Secret of a database wrote nothing, and says so. -/
theorem lost_race_is_truly_told :
    ∃ h, h.map (fun e => e.1.operation) = ["get", "get", "get", "create"] ∧
      Tells Kind.postgres (databaseTiers {}) ⟨.text "default", .text "pg"⟩ h .requeueNow := by
  let pass := (Family.database.handler {}).reconcile {} ⟨.text "default", .text "pg"⟩
  have hrun := Program.leads_run facing_takenAnswer pass []
  have hresult : (pass.run takenAnswer []).1 = .requeueNow ∧
      (pass.run takenAnswer []).2.map (fun e => e.1.operation) = ["get", "get", "get", "create"] := by
    decide +kernel
  rw [hresult.1] at hrun
  exact ⟨_, hresult.2, (one_write_and_true_directive .database (by decide +kernel) _ hrun).2 _ rfl⟩

end Convergence

end Reconciler
