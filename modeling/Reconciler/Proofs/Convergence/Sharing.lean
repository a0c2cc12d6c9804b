import Reconciler.Proofs.Convergence.Directive
import Mathlib.Logic.Function.Iterate

/-! # Parents that share children

Children are found by kind and name, and the names of children are made from the name of the parent. So
two parents in one namespace may look for the same child, and then each takes it for its own. Exactly when
this happens is a question about their names: `Clash`. Parents that do not clash keep apart.

Main statements:

* `shared_iff_clash`: two parents have a child in common exactly if they clash;
* `converge_own`: a pass over a parent asks for the parent and its children, and for nothing else;
* `children_apart_unless_clash`: so parents that do not clash leave each other's children alone;
* `not_childrenApart`: a service and a database that clash, each changing back what the other set.
-/

namespace Reconciler

open Cluster Manifest

namespace Convergence

/-! ## Endings -/

/-- Names with endings of different last characters are different. -/
theorem append_ne_append {s t : String} (h : s.toList.getLast? ≠ t.toList.getLast?)
    (hs : s.toList ≠ []) (ht : t.toList ≠ []) (n m : String) : n ++ s ≠ m ++ t := by
  intro heq
  have hlast := congrArg (fun text => text.toList.getLast?) heq
  simp only [String.toList_append, List.getLast?_append] at hlast
  rw [List.getLast?_eq_some_getLast hs, List.getLast?_eq_some_getLast ht] at hlast h
  exact h hlast

/-- The name of a database for an identity service is that of the identity service of a parent with the
rest of the name. -/
theorem database_eq_keycloak {n m : String} :
    n ++ "-postgres-4-keycloak" = m ++ "-keycloak" ↔ m = n ++ "-postgres-4" := by
  have hsplit : "-postgres-4-keycloak" = "-postgres-4" ++ "-keycloak" := by decide
  rw [hsplit, ← String.append_assoc, String.append_left_inj, eq_comm]

end Convergence

/-- What a call is about. -/
def StoreCall.addressed : StoreCall → Except Fault Address
  | get kind ns name | annotate kind ns name _ => .ok ⟨kind, ns, name⟩
  | create object | update object | updateStatus object => addressOf object

/-! ## Clashes -/

namespace Family

/-- Kinds of children, with what is added to the name of the parent. -/
def endings : Family → List (String × String)
  | service =>
    [(Kind.claim, "-postgres-4-keycloak"), (Kind.secret, ""),
      (Kind.deployment, "-postgres-4-keycloak"), (Kind.service, "-postgres-4-keycloak"),
      (Kind.deployment, "-keycloak"), (Kind.service, "-keycloak"), (Kind.deployment, ""),
      (Kind.service, "-web"), (Kind.service, "-gateway")]
  | database =>
    [(Kind.claim, ""), (Kind.secret, ""), (Kind.deployment, ""), (Kind.service, "")]

/-- The children of a parent are named by the parent, with the endings of its family. -/
theorem addresses_eq (ns : Value) (name : String) (family : Family) :
    family.addresses ns name =
      family.endings.map fun (kind, ending) => ⟨.text kind, ns, .text (name ++ ending)⟩ := by
  cases family with
  | service => simp [addresses, children, endings]
  | database => simp [addresses, children, endings]

/-- The names of parents that have a child in common. Two services clash when one name is the other with
an ending; a service and a database when the database has the name of a child of the service. -/
def Clash : Family → String → Family → String → Prop
  | service, n, service, m =>
    ∃ ending ∈ ["-postgres-4", "-keycloak", "-postgres-4-keycloak"],
      m = n ++ ending ∨ n = m ++ ending
  | service, n, database, m =>
    ∃ ending ∈ ["", "-postgres-4-keycloak", "-keycloak", "-web", "-gateway"], m = n ++ ending
  | database, n, service, m =>
    ∃ ending ∈ ["", "-postgres-4-keycloak", "-keycloak", "-web", "-gateway"], n = m ++ ending
  | database, _, database, _ => False

end Family

namespace Convergence

open Family

/-- Parents have a child in common when an ending of each makes the same name of the same kind. -/
theorem mem_common {ns : Value} {family other : Family} {name name' : String} :
    (∃ a ∈ family.addresses ns name, a ∈ other.addresses ns name') ↔
      ∃ e ∈ family.endings, ∃ e' ∈ other.endings, e.1 = e'.1 ∧ name ++ e.2 = name' ++ e'.2 := by
  simp only [addresses_eq, List.mem_map]
  constructor
  · rintro ⟨_, ⟨e, he, rfl⟩, e', he', heq⟩
    simp only [Address.mk.injEq, Value.text.injEq, true_and] at heq
    exact ⟨e, he, e', he', heq.1.symm, heq.2.symm⟩
  · rintro ⟨e, he, e', he', hkind, hname⟩
    refine ⟨_, ⟨e, he, rfl⟩, e', he', ?_⟩
    rw [hkind, hname]

/-- Two services share a child exactly if their names clash. -/
theorem services_share_iff {ns : Value} {name name' : String} (hne : name ≠ name') :
    (∃ a ∈ Family.service.addresses ns name, a ∈ Family.service.addresses ns name') ↔
      Clash .service name .service name' := by
  have hback : ∀ n m : String, n ++ "-keycloak" = m ++ "-postgres-4-keycloak" ↔
      n = m ++ "-postgres-4" := by
    intro n m
    rw [eq_comm, database_eq_keycloak]
  rw [mem_common]
  -- children of one kind are compared by their names, ending with ending
  simp only [endings, Clash, Kind.claim, Kind.secret, Kind.deployment, Kind.service,
    List.exists_mem_cons_iff, List.not_mem_nil, false_and, exists_false, or_false, String.reduceEq,
    true_and, false_or, String.append_left_inj, String.append_empty, database_eq_keycloak, hback, hne]
  simp (disch := decide) only [append_ne_append]
  grind

/-- A service and a database share a child exactly if their names clash. -/
theorem service_shares_with_database_iff {ns : Value} {name name' : String} :
    (∃ a ∈ Family.service.addresses ns name, a ∈ Family.database.addresses ns name') ↔
      Clash .service name .database name' := by
  rw [mem_common]
  simp only [endings, Clash, Kind.claim, Kind.secret, Kind.deployment, Kind.service,
    List.exists_mem_cons_iff, List.not_mem_nil, false_and, exists_false, or_false, String.reduceEq,
    true_and, false_or, String.append_empty]
  grind

/-- Two databases share no child, since each child is named like its database. -/
theorem databases_share_none {ns : Value} {name name' : String} (hne : name ≠ name') :
    ¬ ∃ a ∈ Family.database.addresses ns name, a ∈ Family.database.addresses ns name' := by
  rw [mem_common]
  rintro ⟨e, he, e', he', -, hname⟩
  have hempty : ∀ e ∈ Family.database.endings, e.2 = "" := by decide
  rw [hempty e he, hempty e' he', String.append_left_inj] at hname
  exact hne hname

/-- Two parents in one namespace have a child in common exactly if they clash. -/
theorem shared_iff_clash (ns : Value) {family other : Family} {name name' : String}
    (hne : (family, name) ≠ (other, name')) :
    (∃ a ∈ family.addresses ns name, a ∈ other.addresses ns name') ↔
      Clash family name other name' := by
  cases family with
  | service =>
    cases other with
    | service => exact services_share_iff (by simpa using hne)
    | database => exact service_shares_with_database_iff
  | database =>
    cases other with
    | service =>
      -- sharing is mutual
      have hback : (∃ a ∈ Family.service.addresses ns name', a ∈ Family.database.addresses ns name) ↔
          Clash .database name .service name' := service_shares_with_database_iff
      rw [← hback]
      exact ⟨fun ⟨a, ha, ha'⟩ => ⟨a, ha', ha⟩, fun ⟨a, ha, ha'⟩ => ⟨a, ha', ha⟩⟩
    | database => exact iff_of_false (databases_share_none (by simpa using hne)) id

/-! ## What a pass asks for -/

/-- A store in which every object is found under its own address. -/
def placed : Answering History :=
  fun h call reply h' => h' = h ++ [(call, reply)] ∧
    ∀ kind ns name object, call = .get kind ns name → reply = .ok object →
      addressOf object = .ok ⟨kind, ns, name⟩

/-- A call about a parent or one of its children. -/
def Own (family : Family) (ns : Value) (name : String) (call : StoreCall) : Prop :=
  ∃ a, call.addressed = .ok a ∧ (a = family.parentAt ns name ∨ a ∈ family.addresses ns name)

section Passes

variable {settings : Settings} {family : Family} {ns : Value} {name : String} {parent : Value}
variable {h : History}

/-- What is asked of a pass: that it is about its parent and the children of its parent only. -/
abbrev AsksOwn (family : Family) (ns : Value) (name : String) (p : Pass Directive) (h : History) :
    Prop :=
  Pass.Ensures placed (fun _ => Own family ns name) (fun _ _ => True) p h

/-- A pass that creates a child of its parent calls about that child. -/
theorem create_own {tier : Tier} {child : Child} (hmakes : tier.Makes parent child)
    (hchild : child.address ∈ family.addresses ns name) :
    AsksOwn family ns name (create family.kind parent tier) h :=
  create_ensures (fun hok herror => hmakes.build hok fun f _ => herror f)
    fun _ hmanifest => ⟨child.address, hmanifest.address, .inr hchild⟩

/-- A pass that corrects a child of its parent calls about that child. -/
theorem patch_own {tier : Tier} {existing : Value} {changes : Fields} {a : Address}
    (hexisting : addressOf existing = .ok a) (ha : a ∈ family.addresses ns name) :
    AsksOwn family ns name (patch settings family.kind parent tier existing changes) h := by
  refine patch_ensures fun changed hchanged => ?_
  exact ⟨a, addressOf_applyChanges hchanged hexisting, .inr ha⟩

/-- A walk over tiers that make children of the parent calls about these children only. -/
theorem walk_own {tiers : List Tier} {children : List Child}
    (hmake : List.Forall₂ (Tier.Makes parent) tiers children)
    (hchildren : ∀ child ∈ children, child.address ∈ family.addresses ns name) :
    AsksOwn family ns name (walk settings family.kind ⟨ns, .text name⟩ parent tiers) h := by
  induction hmake generalizing h with
  | nil =>
    unfold walk
    refine Pass.ensures_read (fun metadata _ => ?_) (fun _ _ => trivial)
    exact Pass.ensures_note trivial (fun _ _ => trivial)
  | @cons tier child tiers children hmakes hmake ih =>
    have hchild : child.address ∈ family.addresses ns name := hchildren child (by simp)
    have hns : child.address.ns = ns := (Family.of_mem_addresses hchild).1
    have haddr : child.address = ⟨.text tier.kind, ns, tier.childName⟩ := by
      rw [← hns, ← hmakes.kind, ← hmakes.name]
    have hrest : ∀ h, AsksOwn family ns name
        (walk settings family.kind ⟨ns, .text name⟩ parent tiers) h :=
      fun h => ih fun c hc => hchildren c (by simp [hc])
    unfold walk
    refine Pass.ensures_attempt ⟨child.address, by rw [haddr]; rfl, .inr hchild⟩ ?_
    rintro (f | existing) h' ⟨-, hplaced⟩
    · dsimp only
      split
      · exact create_own hmakes hchild
      · trivial
    · -- the store is one in which an object is found under its own address
      have hexisting : addressOf existing = .ok child.address := by
        rw [haddr]
        exact hplaced _ _ _ existing rfl rfl
      dsimp only
      split
      · exact hrest _
      · rw [Pass.ensures_bind]
        refine hmakes.build (fun wanted _ => ?_) (fun _ _ => trivial)
        refine Pass.ensures_read (fun changes _ => ?_) (fun _ _ => trivial)
        split
        · exact hrest _
        · exact patch_own hexisting hchild

/-- A pass over a parent asks for the parent and its children only. -/
theorem converge_own :
    AsksOwn family ns name (converge settings family.kind (family.tiers settings.images)
      ⟨ns, .text name⟩) [] := by
  unfold converge
  refine Pass.ensures_must ⟨family.parentAt ns name, rfl, .inl rfl⟩ ?_ (fun _ _ _ => trivial)
  rintro parent h ⟨-, hplaced⟩
  refine Pass.ensures_read (fun metadata _ => ?_) (fun _ _ => trivial)
  rcases family.tiers_make settings.images (hplaced _ _ _ parent rfl rfl) with ⟨tiers, htiers, hmake⟩
  rw [htiers]
  refine Pass.ensures_read (fun tiers' htiers' => ?_) (fun _ _ => trivial)
  obtain rfl := Except.ok.inj htiers'
  refine walk_own hmake ?_
  intro child hchild
  rw [← Family.map_address_children parent]
  exact List.mem_map_of_mem hchild

end Passes

/-- A reconciliation calls about its parent and the children of it only, as its pass does. -/
theorem reconcile_own (settings settings' : Settings) (family : Family) (ns : Value) (name : String) :
    SafePass.Ensures placed (fun _ => Own family ns name) (fun _ _ => True)
      ((family.handler settings).reconcile settings' ⟨ns, .text name⟩) [] := by
  refine (Handler.reconcile_ensures settings' _ _ []).mpr ?_
  cases family with
  | service => exact @converge_own settings .service ns name
  | database => exact @converge_own settings .database ns name

/-! ## Parents that do not clash -/

/-- The tiers of a parent look for its children. -/
theorem map_tiers {parent ns : Value} {tiers : List Tier} {children : List Child}
    (hmake : List.Forall₂ (Tier.Makes parent) tiers children)
    (hns : ∀ child ∈ children, child.address.ns = ns) :
    tiers.map (fun tier => ⟨.text tier.kind, ns, tier.childName⟩) = children.map (·.address) := by
  induction hmake with
  | nil => rfl
  | @cons tier child tiers children hmakes hmake ih =>
    have hfirst : child.address = ⟨.text tier.kind, ns, tier.childName⟩ := by
      rw [← hns child (by simp), ← hmakes.kind, ← hmakes.name]
    rw [List.map_cons, List.map_cons, hfirst, ih fun c hc => hns c (by simp [hc])]

/-- The tiers of a parent look for its children where the addresses of the family say. -/
theorem exists_tiers (family : Family) (images : Images) {parent ns : Value} {name : String}
    (h : addressOf parent = .ok (family.parentAt ns name)) :
    ∃ tiers, family.tiers images parent = .ok tiers ∧
      tiers.map (fun tier => ⟨.text tier.kind, ns, tier.childName⟩) = family.addresses ns name := by
  rcases family.tiers_make images h with ⟨tiers, htiers, hmake⟩
  refine ⟨tiers, htiers, ?_⟩
  rw [← Family.map_address_children parent]
  refine map_tiers hmake ?_
  intro child hchild
  have hmem : child.address ∈ family.addresses ns name := by
    rw [← Family.map_address_children parent]
    exact List.mem_map_of_mem hchild
  exact (Family.of_mem_addresses hmem).1

/-- Of two parents in one namespace, the tiers look for a child in common exactly if the parents clash.
If they do not, no pass over one asks for a child of the other. -/
theorem children_apart_unless_clash {family other : Family} {ns : Value} {name name' : String}
    (hne : (family, name) ≠ (other, name')) :
    (∀ images parent parent', addressOf parent = .ok (family.parentAt ns name) →
      addressOf parent' = .ok (other.parentAt ns name') →
      ∃ tiers tiers', family.tiers images parent = .ok tiers ∧
        other.tiers images parent' = .ok tiers' ∧
        ((∃ tier ∈ tiers, ∃ tier' ∈ tiers', tier.kind = tier'.kind ∧
          tier.childName = tier'.childName) ↔ Clash family name other name')) ∧
    (¬ Clash family name other name' → ∀ settings settings' rest h,
      Program.Leads (facing placed) ((family.handler settings).reconcile settings' ⟨ns, .text name⟩)
        [] rest h →
      ∀ e ∈ h, ∀ a ∈ other.addresses ns name', e.1.addressed ≠ .ok a) := by
  constructor
  · intro images parent parent' hparent hparent'
    rcases exists_tiers family images hparent with ⟨tiers, htiers, hmap⟩
    rcases exists_tiers other images hparent' with ⟨tiers', htiers', hmap'⟩
    refine ⟨tiers, tiers', htiers, htiers', ?_⟩
    -- what the tiers look for are the addresses of the two families
    rw [← shared_iff_clash ns hne, ← hmap, ← hmap']
    simp only [List.mem_map]
    constructor
    · rintro ⟨tier, htier, tier', htier', hkind, hname⟩
      exact ⟨_, ⟨tier, htier, rfl⟩, tier', htier', by rw [hkind, hname]⟩
    · rintro ⟨_, ⟨tier, htier, rfl⟩, tier', htier', heq⟩
      simp only [Address.mk.injEq, Value.text.injEq, true_and] at heq
      exact ⟨tier, htier, tier', htier', heq.1.symm, heq.2.symm⟩
  · intro hclash settings settings' rest h hrun
    have hpass := reconcile_own settings settings' family ns name
    -- every call of the run is about the parent or a child of its own
    have hown : ∀ e ∈ h, Own family ns name e.1 := by
      refine hpass.invariant (I := fun h => ∀ e ∈ h, Own family ns name e.1) hrun (by simp) ?_
      rintro h call reply h' hold hmay ⟨rfl, -⟩
      intro e he
      rcases List.mem_append.mp he with he | he
      · exact hold e he
      · obtain rfl := List.mem_singleton.mp he
        exact hmay
    intro e he a ha heq
    rcases hown e he with ⟨b, hb, hown⟩
    obtain rfl : b = a := Except.ok.inj (hb.symm.trans heq)
    rcases hown with rfl | hown
    · exact Family.kind_ne_of_mem_addresses family ha rfl
    · exact hclash ((shared_iff_clash ns hne).mp ⟨b, hown, ha⟩)

theorem placed_takenAnswer (h : History) (op : PassOp) :
    facing placed h op (takenAnswer op h).1 (takenAnswer op h).2 := by
  cases op with
  | store call =>
    refine ⟨rfl, ?_⟩
    rintro kind ns name object rfl hreply
    by_cases hsecret : kind = .text Kind.secret
    · simp [takenAnswer, takenReply, hsecret] at hreply
    · simp only [takenAnswer, takenReply, hsecret, if_false, Except.ok.injEq] at hreply
      subst hreply
      rfl
  | random op => exact ⟨(Cluster.empty.facing_answered (.random op)).1, rfl⟩
  | instant | seconds | trace => rfl

/-- A pass over a service, beside a database with a name of its own. -/
theorem service_apart_from_database :
    (Family.service, "space") ≠ (Family.database, "pg") ∧
      ¬ Clash .service "space" .database "pg" ∧
      ∃ h : History, h.map (fun e => e.1.operation) = ["get", "get", "get", "create"] ∧
        ∀ e ∈ h, ∀ a ∈ Family.database.addresses (.text "default") "pg", e.1.addressed ≠ .ok a := by
  have hclash : ¬ Clash .service "space" .database "pg" := by
    simp only [Clash]
    decide
  let pass := (Family.service.handler {}).reconcile {} ⟨.text "default", .text "space"⟩
  have hrun := Program.leads_run placed_takenAnswer pass []
  have hcalls : (pass.run takenAnswer []).2.map (fun e => e.1.operation) =
      ["get", "get", "get", "create"] := by
    decide +kernel
  refine ⟨by decide, hclash, _, hcalls, ?_⟩
  exact (children_apart_unless_clash (by decide)).2 hclash _ _ _ _ hrun

/-! ### A fight -/

/-- Whatever their names, parents in one namespace have no child in common. -/
def ChildrenApart : Prop :=
  ∀ (ns : Value) (family other : Family) (name name' : String),
    (family, name) ≠ (other, name') →
    ∀ a ∈ family.addresses ns name, a ∉ other.addresses ns name'

def sampleParent (family : Family) (name : String) (spec : Fields) : Value :=
  .object [("apiVersion", .text apiGroupVersion), ("kind", .text family.kind),
    ("metadata", .object [("name", .text name), ("namespace", .text "default"),
      ("uid", .text ("uid-" ++ family.kind))]),
    ("spec", .object spec)]

def samplePass (family : Family) (name : String) : SafePass Directive :=
  (family.handler {}).reconcile {} ⟨.text "default", .text name⟩

def afterPass (family : Family) (name : String) (c : Cluster) : Cluster :=
  ((samplePass family name).run reliably c).2

/-- A database that is reachable from outside, and has all its children. Then a service makes its
Secret; the claim of its own database is there already. -/
def fightCluster : Cluster :=
  let c := (Cluster.empty.put (sampleParent .database "space-postgres-4-keycloak"
    [("serviceType", .text "NodePort")])).2
  let c := (c.put (sampleParent .service "space" [])).2
  afterPass .service "space" ((afterPass .database "space-postgres-4-keycloak")^[4] c)

/-- The endpoint of the database. -/
def foughtOver : Address :=
  ⟨.text Kind.service, .text "default", .text "space-postgres-4-keycloak"⟩

/-- The endpoint of a database is updated by a pass over a service, and changed back by the next pass over
the database: both take it for their own. -/
theorem not_childrenApart :
    ¬ ChildrenApart ∧
      ∃ endpoint c c', fightCluster.find? foughtOver = some endpoint ∧
        controllerOf endpoint = some (.text Kind.postgres, .text "uid-Postgres") ∧
        Program.Leads (facing reliable) (samplePass .service "space") fightCluster
          (.done (.requeueAfter 60)) c ∧
        c.journal = fightCluster.journal ++ [⟨"update", foughtOver⟩] ∧
        Program.Leads (facing reliable) (samplePass .database "space-postgres-4-keycloak") c
          (.done (.requeueAfter 60)) c' ∧
        c'.journal = c.journal ++ [⟨"update", foughtOver⟩] := by
  constructor
  · intro happart
    have hservice : foughtOver ∈ Family.service.addresses (.text "default") "space" := by decide
    have hdatabase : foughtOver ∈
        Family.database.addresses (.text "default") "space-postgres-4-keycloak" := by decide
    exact happart _ .service .database _ _ (by decide) foughtOver hservice hdatabase
  · -- one pass each, the second one starting where the first one ended
    let ran := (samplePass .service "space").run reliably fightCluster
    let ran' := (samplePass .database "space-postgres-4-keycloak").run reliably ran.2
    have hfound : (fightCluster.find? foughtOver).map controllerOf =
        some (some (.text Kind.postgres, .text "uid-Postgres")) := by
      decide +kernel
    have hservice : ran.1 = .requeueAfter 60 ∧
        ran.2.journal = fightCluster.journal ++ [⟨"update", foughtOver⟩] := by
      decide +kernel
    have hdatabase : ran'.1 = .requeueAfter 60 ∧
        ran'.2.journal = ran.2.journal ++ [⟨"update", foughtOver⟩] := by
      decide +kernel
    rcases Option.map_eq_some_iff.mp hfound with ⟨endpoint, hendpoint, hcontroller⟩
    have hrun : Program.Leads (facing reliable) (samplePass .service "space") fightCluster
        (.done ran.1) ran.2 := Program.leads_run facing_reliably _ _
    have hrun' : Program.Leads (facing reliable) (samplePass .database "space-postgres-4-keycloak")
        ran.2 (.done ran'.1) ran'.2 := Program.leads_run facing_reliably _ _
    rw [hservice.1] at hrun
    rw [hdatabase.1] at hrun'
    exact ⟨endpoint, _, _, hendpoint, hcontroller, hrun, hservice.2, hrun', hdatabase.2⟩

end Convergence

end Reconciler
