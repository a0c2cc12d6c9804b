import Reconciler.Proofs.Convergence.Order
import Reconciler.Proofs.Reports.Accounting
import Reconciler.Proofs.Secrecy.Lockstep

/-! # Passwords stay in their Secrets

A password is drawn when a Secret is created, goes into that Secret, and is never looked at again. So two
runs of the same passes, in the same circumstances, that only differ in what is drawn, come to the same
directives and leave the same behind; they make the same calls, and end with the same store, up to the
passwords in the Secrets that were created.

Main definitions and statements:

* `Discreet`: a tier that compares nothing that holds a password;
* `reconcile_lockstep`: passes of services and databases are in lockstep with themselves;
* `series`: passes one after the other;
* `password_influences_its_secret_only`: the result for all series.
-/

namespace Reconciler

open Convergence (create patch walk converge databaseCluster)
open SafePass (course)

/-! ## Credentials -/

/-- Two objects that can be sent in counterparts. -/
def Sealed (object object' : Value) : Prop :=
  Counterparts (.create object) (.create object')

section Credentials

/-- A draw is run one question after the other. -/
theorem lockstep_drawn {α β : Type} {post : α → β → Prop} (op op' : RandomOp)
    {next : op.Answer → Program randomSignature α} {next' : op'.Answer → Program randomSignature β}
    (hnext : ∀ reply reply', op.Lawful reply → op'.Lawful reply' → Lockstep post
      ((next reply).run fun op => Program.query (S := passSignature) (.random op))
      ((next' reply').run fun op => Program.query (S := passSignature) (.random op))) :
    Lockstep post
      ((Program.ask (S := randomSignature) op next).run fun op =>
        Program.query (S := passSignature) (.random op))
      ((Program.ask (S := randomSignature) op' next').run fun op =>
        Program.query (S := passSignature) (.random op)) :=
  .random hnext

/-- Two passwords are drawn with the same questions, but for the characters that are shuffled. -/
theorem inStep_draw : Pass.InStep (fun _ _ => True) (Pass.draw Password.generateDefault)
    (Pass.draw Password.generateDefault) := by
  have hcount : ¬ ((16 : Int) - 4 - 4 < 0) := by decide
  simp only [Password.generateDefault, Password.generate, if_neg hcount]
  let drawn (r r' : Except Fault String) : Prop :=
    ∃ password password', r = .ok password ∧ r' = .ok password'
  refine Lockstep.bind (?_ : Lockstep drawn _ _) ?_
  · -- one draw after the other; none asks for more characters than its pool has
    refine lockstep_drawn .source .source ?_
    intro _ _ _ _
    refine lockstep_drawn (.sample _ _) (.sample _ _) ?_
    intro letters letters' hletters hletters'
    obtain ⟨letters, rfl⟩ := exists_of_lawful (by decide) hletters
    obtain ⟨letters', rfl⟩ := exists_of_lawful (by decide) hletters'
    refine lockstep_drawn (.sample _ _) (.sample _ _) ?_
    intro digits digits' hdigits hdigits'
    obtain ⟨digits, rfl⟩ := exists_of_lawful (by decide) hdigits
    obtain ⟨digits', rfl⟩ := exists_of_lawful (by decide) hdigits'
    refine lockstep_drawn (.sample _ _) (.sample _ _) ?_
    intro symbols symbols' hsymbols hsymbols'
    obtain ⟨symbols, rfl⟩ := exists_of_lawful (by decide) hsymbols
    obtain ⟨symbols', rfl⟩ := exists_of_lawful (by decide) hsymbols'
    refine lockstep_drawn (.shuffle _) (.shuffle _) ?_
    intro chars chars' _ _
    exact .done ⟨_, _, rfl, rfl⟩
  · -- both draws come to a password, though to another one
    rintro _ _ ⟨password, password', rfl, rfl⟩
    exact .done (.ok trivial)

/-- Two credentials of the same parent differ in their passwords only. -/
theorem inStep_buildCredential (parent : Value) :
    Pass.InStep Sealed (buildCredential parent) (buildCredential parent) := by
  unfold buildCredential
  refine Pass.inStep_bind inStep_draw (fun password password' _ => ?_)
  unfold Manifest.credential
  cases Manifest.credentialName parent with
  | error f => exact .done (.error _)
  | ok name =>
    simp only [bind, Except.bind]
    cases Manifest.objectMeta parent name .null true with
    | error f => exact .done (.error _)
    | ok metadata => exact .done (.ok (.secret rfl rfl))

end Credentials

/-! ## Tiers -/

section Tiers

variable {settings : Settings} {kind : String} {id : Identity} {parent : Value} {tier : Tier}

/-- A tier whose child is built in counterparts. When it compares its child with the wanted one, it is not a
Secret and nothing is drawn for it. -/
structure Discreet (tier : Tier) : Prop where
  build : Pass.InStep Sealed tier.build tier.build
  drift : ∀ drift, tier.drift = some drift →
    tier.kind ≠ Kind.secret ∧ ∃ read, tier.build = Pass.lift read

/-- What is read off the parent is built the same. -/
theorem inStep_built (read : Except Fault Value) :
    Pass.InStep Sealed (Pass.lift read) (Pass.lift read) := by
  cases read with
  | ok object => exact .done (.ok (.create object))
  | error f => exact .done (.error _)

/-- What is heard of a create is only whether it succeeded. -/
theorem create_inStep (hbuild : Pass.InStep Sealed tier.build tier.build) :
    Pass.InStep Eq (create kind parent tier) (create kind parent tier) := by
  unfold create
  refine Pass.inStep_read (fun metadata _ => ?_)
  refine Pass.inStep_tell _ ?_
  refine Pass.inStep_bind hbuild (fun manifest manifest' hsealed => ?_)
  refine Pass.inStep_note ?_
  refine Pass.inStep_attempt hsealed (fun reply reply' halike _ => ?_)
  -- both creations fail, or both succeed, and what is stored is not looked at
  rcases alike_iff.mp halike with ⟨f, rfl, rfl⟩ | ⟨created, created', rfl, rfl, -⟩
  · dsimp only
    split
    · exact Pass.inStep_tell _ (Pass.inStep_pure rfl)
    · exact Pass.inStep_tell _ (Pass.inStep_throw f)
  · exact Pass.inStep_tell _ (Pass.inStep_tell _ (Pass.inStep_pure rfl))

/-- A correction is sent by both, since both compared an object without a password. -/
theorem patch_inStep (existing : Value) (changes : Fields) :
    Pass.InStep Eq (patch settings kind parent tier existing changes)
      (patch settings kind parent tier existing changes) := by
  unfold patch
  refine Pass.inStep_tell _ ?_
  refine Pass.inStep_read (fun metadata _ => ?_)
  refine Pass.inStep_tell _ ?_
  refine Pass.inStep_note ?_
  refine Pass.inStep_read (fun changed _ => ?_)
  refine Pass.inStep_attempt (.update changed) (fun reply reply' halike _ => ?_)
  -- refused by the same fault, or stored with what either side had
  rcases alike_iff.mp halike with ⟨f, rfl, rfl⟩ | ⟨updated, updated', rfl, rfl, -⟩
  · dsimp only
    split
    · exact Pass.inStep_tell _ (Pass.inStep_pure rfl)
    · exact Pass.inStep_tell _ (Pass.inStep_throw f)
  · exact Pass.inStep_tell _ (Pass.inStep_tell _ (Pass.inStep_liftRead _))

/-- What is found at a tier is only looked at where there are no passwords. -/
theorem walk_inStep {tiers : List Tier} (hdiscreet : ∀ tier ∈ tiers, Discreet tier) :
    Pass.InStep Eq (walk settings kind id parent tiers) (walk settings kind id parent tiers) := by
  induction tiers with
  | nil =>
    unfold walk
    refine Pass.inStep_read (fun metadata _ => ?_)
    exact Pass.inStep_note (Pass.inStep_pure rfl)
  | cons tier rest ih =>
    obtain ⟨hbuild, hdrift⟩ := hdiscreet tier List.mem_cons_self
    have hrest := ih fun tier htier => hdiscreet tier (List.mem_cons_of_mem _ htier)
    unfold walk
    refine Pass.inStep_attempt (.fetch _ _ _) (fun reply reply' halike hsame => ?_)
    rcases alike_iff.mp halike with ⟨f, rfl, rfl⟩ | ⟨existing, existing', rfl, rfl, -⟩
    · dsimp only
      split
      · exact create_inStep hbuild
      · exact Pass.inStep_throw f
    · cases hcompared : tier.drift with
      | none => exact hrest
      | some drift =>
        -- only endpoints are compared, and these are the same on both sides
        obtain ⟨hkind, read, hread⟩ := hdrift drift hcompared
        obtain rfl : existing = existing' :=
          Except.ok.inj (hsame fun hsecret => hkind (Value.text.inj hsecret))
        rw [hread]
        refine Pass.inStep_read (fun wanted _ => ?_)
        refine Pass.inStep_read (fun changes _ => ?_)
        split
        · exact hrest
        · exact patch_inStep existing changes

/-- Only endpoints are compared with what is wanted. -/
theorem discreet_tiers (family : Family) (images : Images) {all : List Tier}
    (hall : family.tiers images parent = .ok all) : ∀ tier ∈ all, Discreet tier := by
  have hservice : Kind.service ≠ Kind.secret := by decide
  refine family.forall_tiers images hall ?_ ?_ ?_
  · exact fun _ _ _ build => ⟨inStep_built build, nofun⟩
  · exact fun _ _ build => ⟨inStep_built build, fun _ _ => ⟨hservice, build, rfl⟩⟩
  · exact fun _ _ => ⟨inStep_buildCredential parent, nofun⟩

/-- A pass over a parent goes in step with itself, whatever its passwords are. -/
theorem converge_inStep (settings : Settings) (family : Family) (id : Identity) :
    Pass.InStep Eq (converge settings family.kind (family.tiers settings.images) id)
      (converge settings family.kind (family.tiers settings.images) id) := by
  unfold converge
  have hkind : family.kind ≠ Kind.secret := by cases family <;> decide
  refine Pass.inStep_fetch hkind _ _ (fun parent => ?_)
  refine Pass.inStep_read (fun metadata _ => ?_)
  refine Pass.inStep_read (fun all hall => ?_)
  exact walk_inStep (discreet_tiers family settings.images hall)

end Tiers

/-! ## Reconciliations -/

section Reconciliations

variable {settings : Settings} {h : Handler} {id : Identity}

/-- What a reconciliation does before its pass draws nothing and calls nothing. -/
theorem opening_lockstep (h : Handler) (id : Identity) : Lockstep Eq (h.opening id) (h.opening id) :=
  .common trivial fun _ => lockstep_tell _ (.done rfl)

theorem time_lockstep (start : Rat) : Lockstep Eq (h.time settings start) (h.time settings start) :=
  .common trivial fun _ => .common trivial fun _ => .done rfl

theorem fail_lockstep (f : Failure) : Lockstep Eq (h.fail id f) (h.fail id f) := by
  unfold Handler.fail
  -- what is logged differs, and then both count
  split
  · exact lockstep_tell _ (lockstep_tell _ (lockstep_tell _ (.done rfl)))
  · exact lockstep_tell _ (lockstep_tell _ (lockstep_tell _ (.done rfl)))

/-- Both count the same directive. -/
theorem finish_lockstep (d : Directive) : Lockstep Eq (h.finish id d) (h.finish id d) := by
  unfold Handler.finish
  split
  · exact fail_lockstep _
  · exact lockstep_tell _ (.done rfl)

theorem time_finish_lockstep (start : Rat) (d : Directive) :
    Lockstep Eq (do h.time settings start; h.finish id d) (do h.time settings start; h.finish id d) :=
  (time_lockstep start).bind fun _ _ _ => finish_lockstep d

/-- What follows a pass depends on its result only. -/
theorem conclude_lockstep (start : Rat) (r : Except Failure Directive) :
    Lockstep Eq (h.conclude settings id start r) (h.conclude settings id start r) := by
  cases r with
  | ok d => exact lockstep_tell _ (time_finish_lockstep start d)
  | error f =>
    refine lockstep_tell _ ?_
    split
    · exact lockstep_tell _ (time_finish_lockstep start .done)
    · split
      · refine lockstep_tell _ (lockstep_tell _ ?_)
        exact (time_lockstep start).bind fun _ _ _ => .done rfl
      · refine (fail_lockstep f).bind ?_
        rintro d _ rfl
        exact (time_lockstep start).bind fun _ _ _ => .done rfl

/-- A reconciliation goes in step with itself as its pass does. -/
theorem reconcile_lockstep (settings : Settings) (family : Family) (id : Identity) :
    Lockstep Eq ((family.handler settings).reconcile settings id)
      ((family.handler settings).reconcile settings id) := by
  rw [Handler.reconcile_eq]
  refine (opening_lockstep _ id).bind ?_
  rintro start _ rfl
  have hpass : Pass.InStep Eq ((family.handler settings).converge id)
      ((family.handler settings).converge id) := by
    cases family with
    | service => exact converge_inStep settings .service id
    | database => exact converge_inStep settings .database id
  refine Lockstep.bind hpass ?_
  intro r r' hsame
  obtain rfl := hsame.eq
  exact conclude_lockstep start r

/-- Passes over services and databases, one after the other, and what each of them came to. -/
def series (settings : Settings) : List (Family × Identity) → SafePass (List Directive)
  | [] => return []
  | (family, id) :: rest => do
    let directive ← (family.handler settings).reconcile settings id
    return directive :: (← series settings rest)

theorem series_lockstep (settings : Settings) (passes : List (Family × Identity)) :
    Lockstep Eq (series settings passes) (series settings passes) := by
  induction passes with
  | nil => exact .done rfl
  | cons pass rest ih =>
    refine (reconcile_lockstep settings pass.1 pass.2).bind ?_
    rintro directive _ rfl
    refine ih.bind ?_
    rintro directives _ rfl
    exact .done rfl

end Reconciliations

/-! ## Series -/

/-- Two runs of the same passes over services and databases, from the same cluster and in the same
circumstances, each with its own source of randomness, come to the same directives, leave the same logs,
events and measurements behind, and make the same calls and writes, but for passwords that are sent. Their
clusters are the same in the end but for the passwords in Secrets that were created meanwhile. -/
theorem password_influences_its_secret_only (settings : Settings) {circumstances : Circumstances}
    (hblind : circumstances.Blind) {source source' : Source} (hlawful : source.Lawful)
    (hlawful' : source'.Lawful) (passes : List (Family × Identity)) (start : Cluster) :
    let run := (series settings passes).course (circumstances.facing source) ⟨start, 0⟩
    let run' := (series settings passes).course (circumstances.facing source') ⟨start, 0⟩
    let secrets := run.state.cluster.secretsSince start.journal.length
    run.result = run'.result ∧ run.left = run'.left ∧
      run.heard.map (·.1.veiled) = run'.heard.map (·.1.veiled) ∧
      run.state.cluster.journal = run'.state.cluster.journal ∧
      run.state.cluster.veiled secrets = run'.state.cluster.veiled secrets := by
  intro run run' secrets
  have hstart : Abreast start.journal.length ⟨start, 0⟩ ⟨start, 0⟩ := ⟨rfl, Nat.le_refl _, .refl start⟩
  have hparallel : Parallel Eq start.journal.length run run' :=
    (series_lockstep settings passes).courses hblind hlawful hlawful' hstart
  exact ⟨hparallel.result, hparallel.left, hparallel.calls, hparallel.state.twins.journal,
    hparallel.state.twins⟩

/-! ### Two passwords -/

/-- A store that is always reached, and clocks that stand still. -/
def calm : Circumstances where
  fate _ _ := .served
  seconds _ := 0
  instant _ := (0 : Int)

/-- A source that draws the beginning of a pool, and shuffles in some way. -/
def sourceShuffling (shuffle : List Char → List Char) : Source
  | _, .source => ()
  | _, .sample pool count =>
    if RandomOp.refuses pool count then Except.error RandomOp.refusal
    else Except.ok (pool.take count.toNat)
  | _, .shuffle chars => shuffle chars

theorem lawful_sourceShuffling {shuffle : List Char → List Char}
    (hshuffle : ∀ chars, (shuffle chars).Perm chars) : (sourceShuffling shuffle).Lawful := by
  intro n op
  match op with
  | .source => trivial
  | .sample pool count => exact RandomOp.lawful_take pool count
  | .shuffle chars => exact hshuffle chars

/-- Three passes over a database, with two sources: the password differs, and nothing else does. -/
theorem two_passwords_for_a_database :
    let passes := List.replicate 3 (Family.database, Identity.mk (.text "default") (.text "pg"))
    let run := (series {} passes).course (calm.facing (sourceShuffling id)) ⟨databaseCluster, 0⟩
    let run' := (series {} passes).course (calm.facing (sourceShuffling List.reverse)) ⟨databaseCluster, 0⟩
    let secret : Address := ⟨.text Kind.secret, .text "default", .text "pg"⟩
    calm.Blind ∧ (sourceShuffling id).Lawful ∧ (sourceShuffling List.reverse).Lawful ∧
      run.state.cluster.veiled [secret] = run'.state.cluster.veiled [secret] ∧
      run.state.cluster.find? secret ≠ run'.state.cluster.find? secret := by
  intro passes run run' secret
  have hblind : calm.Blind := fun _ _ _ _ => rfl
  have hid : (sourceShuffling id).Lawful := lawful_sourceShuffling fun chars => .refl chars
  have hreverse : (sourceShuffling List.reverse).Lawful := lawful_sourceShuffling List.reverse_perm
  obtain ⟨-, -, -, -, hveiled⟩ :=
    password_influences_its_secret_only {} hblind hid hreverse passes databaseCluster
  -- the only Secret that the passes create is the one of the database
  have hsecrets : run.state.cluster.secretsSince databaseCluster.journal.length = [secret] := by
    decide +kernel
  refine ⟨hblind, hid, hreverse, ?_, ?_⟩
  · rw [← hsecrets]
    exact hveiled
  · decide +kernel

end Reconciler
