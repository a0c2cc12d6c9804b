import Reconciler.Proofs.Convergence.Children
import Reconciler.Proofs.Schedule
import Mathlib.Data.List.Nodup

/-! # Children appear in order

A pass creates a child only after it fetched all children before it, in its own time. Children are not
removed, so they are all still there when the create takes effect, whatever other passes did meanwhile; and
a create that comes second finds its name taken.

Main statements:

* `converge_asks`: what a pass creates, it creates after it fetched everything before it;
* `Ordered.step`: one step of any interleaving keeps the existing children closed under what comes before;
* `children_in_order`: so at every moment they are a prefix of the tiers.
-/

namespace Reconciler

/-- A pass does what it may when it may do anything from now on. -/
theorem Program.ensures_of_stable {S : Signature} {σ α : Type} {E : Responder S σ}
    {may : σ → S.Op → Prop} (free : σ → Prop) (hmay : ∀ s op, free s → may s op)
    (hstable : ∀ s op answer s', free s → E s op answer s' → free s') (p : Program S α) {s : σ}
    (hs : free s) : p.Ensures E may (fun _ _ => True) s := by
  induction p generalizing s with
  | done a => trivial
  | ask op next ih =>
    exact ⟨hmay s op hs, fun answer s' hE => ih answer (hstable s op answer s' hs hE)⟩

namespace Convergence

open Cluster

/-! ## What a pass may ask -/

/-- A child that is created after everything before it was fetched. -/
def InTurn (family : Family) (ns : Value) (name : String) (h : History) (object : Value) : Prop :=
  ∃ before a after, family.addresses ns name = before ++ a :: after ∧ addressOf object = .ok a ∧
    ∀ b ∈ before, h.reads b ≠ []

/-- The calls a pass over a parent may make, provided that what it read as the parent is the parent: it
may read, replace what is there, and create children in turn. -/
def MayAsk (family : Family) (ns : Value) (name : String) (h : History) (call : StoreCall) : Prop :=
  (∀ parent ∈ h.reads (family.parentAt ns name), addressOf parent = .ok (family.parentAt ns name)) →
    match call with
    | .get _ _ _ | .update _ => True
    | .create object => InTurn family ns name h object
    | .updateStatus _ | .annotate _ _ _ _ => False

section Passes

variable {settings : Settings} {family : Family} {ns : Value} {name : String} {parent : Value}
variable {h : History}

/-- What is asked of a pass: that it makes permitted calls only. -/
abbrev Asks (family : Family) (ns : Value) (name : String) (p : Pass Directive) (h : History) : Prop :=
  Pass.Ensures noted (MayAsk family ns name) (fun _ _ => True) p h

/-- A pass that creates a missing child in turn makes permitted calls only. -/
theorem create_asks {tier : Tier} {child : Child} (hmakes : tier.Makes parent child)
    (hturn : ∀ object, addressOf object = .ok child.address → InTurn family ns name h object) :
    Asks family ns name (create family.kind parent tier) h :=
  create_ensures (fun hok herror => hmakes.build hok fun f _ => herror f)
    fun manifest hmanifest _ => hturn manifest hmanifest.address

/-- A pass that corrects a child makes permitted calls only. -/
theorem patch_asks {tier : Tier} {existing : Value} {changes : Fields} :
    Asks family ns name (patch settings family.kind parent tier existing changes) h :=
  patch_ensures fun _ _ _ => trivial

/-- A pass that fetched the children so far goes on in turn. -/
theorem walk_asks {tiers : List Tier} {children : List Child} (before : List Address)
    (hmake : List.Forall₂ (Tier.Makes parent) tiers children)
    (hsplit : family.addresses ns name = before ++ children.map (·.address))
    (hfetched : ∀ b ∈ before, h.reads b ≠ []) :
    Asks family ns name (walk settings family.kind ⟨ns, .text name⟩ parent tiers) h := by
  induction hmake generalizing h before with
  | nil =>
    unfold walk
    refine Pass.ensures_read (fun metadata _ => ?_) (fun _ _ => trivial)
    exact Pass.ensures_note trivial (fun _ _ => trivial)
  | @cons tier child tiers children hmakes hmake ih =>
    have hmem : child.address ∈ family.addresses ns name := by simp [hsplit]
    have hns : child.address.ns = ns := (Family.of_mem_addresses hmem).1
    have haddr : child.address = ⟨.text tier.kind, ns, tier.childName⟩ := by
      rw [← hns, ← hmakes.kind, ← hmakes.name]
    -- with this child fetched, the children before the next one are one more
    have hsplit' : family.addresses ns name =
        (before ++ [child.address]) ++ children.map (·.address) := by simp [hsplit]
    unfold walk
    refine Pass.ensures_attempt (fun _ => trivial) ?_
    rintro (f | existing) h' rfl
    · dsimp only
      -- any failure but a missing child ends the pass
      split
      · refine create_asks hmakes ?_
        intro object hobject
        refine ⟨before, child.address, _, hsplit, hobject, fun b hb => ?_⟩
        rw [History.reads_append_error]
        exact hfetched b hb
      · trivial
    · have hfetched' : ∀ b ∈ before ++ [child.address], History.reads b
          (h ++ [(.get (.text tier.kind) ns tier.childName, .ok existing)]) ≠ [] := by
        intro b hb
        rcases List.mem_append.mp hb with hb | hb
        · rw [History.reads_append]
          simp [hfetched b hb]
        · obtain rfl : b = child.address := by simpa using hb
          rw [haddr, History.reads_append_get]
          simp
      dsimp only
      split
      · exact ih _ hsplit' hfetched'
      · rw [Pass.ensures_bind]
        refine hmakes.build (fun manifest _ => ?_) (fun _ _ => trivial)
        refine Pass.ensures_read (fun changes _ => ?_) (fun _ _ => trivial)
        split
        · exact ih _ hsplit' hfetched'
        · exact patch_asks

/-- What a pass creates, it creates after it fetched everything before it. -/
theorem converge_asks :
    Asks family ns name (converge settings family.kind (family.tiers settings.images)
      ⟨ns, .text name⟩) [] := by
  unfold converge
  refine Pass.ensures_must (fun _ => trivial) ?_ (fun _ _ _ => trivial)
  rintro parent h' rfl
  have hread : History.reads (family.parentAt ns name)
      [(.get (.text family.kind) ns (.text name), .ok parent)] = [parent] :=
    History.reads_append_get (h := []) _ _ _ _
  by_cases haddr : addressOf parent = .ok (family.parentAt ns name)
  · refine Pass.ensures_read (fun metadata _ => ?_) (fun _ _ => trivial)
    rcases family.tiers_make settings.images haddr with ⟨tiers, htiers, hmake⟩
    rw [htiers]
    refine Pass.ensures_read (fun tiers' htiers' => ?_) (fun _ _ => trivial)
    obtain rfl := Except.ok.inj htiers'
    refine walk_asks [] hmake ?_ (by simp)
    rw [List.nil_append, Family.map_address_children]
  · -- what was read as the parent is something else, and stays so
    refine Program.ensures_of_stable (fun h : History => parent ∈ h.reads
      (family.parentAt ns name)) ?_ ?_ _ (by simp [hread])
    · intro h op hfree
      cases op with
      | store call => exact fun hall => absurd (hall parent hfree) haddr
      | _ => trivial
    · exact fun h op answer h' hfree hnoted => History.mem_reads_of_noted hfree hnoted

end Passes

/-! ## One step of an interleaving -/

/-- A pass over a parent, with any settings. -/
def PassOver (family : Family) (ns : Value) (name : String) (p : SafePass Directive) : Prop :=
  ∃ settings settings', p = (family.handler settings).reconcile settings' ⟨ns, .text name⟩

/-- A pass over a parent makes permitted calls only, through its handler. -/
theorem PassOver.asks {family : Family} {ns : Value} {name : String} (p : SafePass Directive)
    (hp : PassOver family ns name p) :
    SafePass.Ensures noted (MayAsk family ns name) (fun _ _ => True) p [] := by
  rcases hp with ⟨settings, settings', rfl⟩
  refine (Handler.reconcile_ensures settings' _ _ []).mpr ?_
  cases family with
  | service => exact @converge_asks settings .service ns name
  | database => exact @converge_asks settings .database ns name

/-- What others may do while children are made: anything but adding or removing children, as long as what
they store as the parent goes by its name. -/
structure Edits (family : Family) (ns : Value) (name : String) (c c' : Cluster) : Prop where
  parent : ∀ parent, c'.find? (family.parentAt ns name) = some parent →
    addressOf parent = .ok (family.parentAt ns name)
  children : ∀ a ∈ family.addresses ns name, (c'.find? a).isSome = (c.find? a).isSome
  journal : c'.journal = c.journal

/-- What may become of the children: none comes or goes, or one is created after all before it. -/
inductive Grows (family : Family) (ns : Value) (name : String) (c c' : Cluster) : Prop where
  | stays :
      (∀ a ∈ family.addresses ns name, (c'.find? a).isSome = (c.find? a).isSome ∧
        c'.journal.count ⟨"create", a⟩ = c.journal.count ⟨"create", a⟩) →
      Grows family ns name c c'
  | adds {before after : List Address} {a : Address} :
      family.addresses ns name = before ++ a :: after →
      (∀ b ∈ before, (c.find? b).isSome = true) → c.find? a = none →
      (c'.find? a).isSome = true → (∀ b, b ≠ a → c'.find? b = c.find? b) →
      c'.journal = c.journal ++ [⟨"create", a⟩] → Grows family ns name c c'

/-- Since a moment, the children that exist are closed under what comes before, and each was created as
often as it exists. -/
structure Grown (family : Family) (ns : Value) (name : String) (start c : Cluster) : Prop where
  closed : ∀ before a after, family.addresses ns name = before ++ a :: after →
    (c.find? a).isSome = true → ∀ b ∈ before, (c.find? b).isSome = true
  created : ∀ a ∈ family.addresses ns name, c.journal.count ⟨"create", a⟩ =
    start.journal.count ⟨"create", a⟩ + if (c.find? a).isSome then 1 else 0

/-- An item that occurs once is at one place. -/
theorem eq_of_append_cons {α : Type} {before after before' after' : List α} {a : α}
    (hnodup : (before ++ a :: after).Nodup) (h : before ++ a :: after = before' ++ a :: after') :
    before' = before := by
  have hnot : a ∉ before ++ after := (List.nodup_cons.mp (List.nodup_middle.mp hnodup)).1
  -- if one place came before the other, the item would occur between them
  rcases List.append_eq_append_iff.mp h with ⟨rest, hb, hr⟩ | ⟨rest, hb, hr⟩
  · cases rest with
    | nil => simpa using hb
    | cons x rest =>
      rcases List.cons.inj hr with ⟨rfl, hafter⟩
      exact absurd (by simp [hafter]) hnot
  · cases rest with
    | nil => simpa using hb.symm
    | cons x rest =>
      rcases List.cons.inj hr with ⟨rfl, -⟩
      exact absurd (by simp [hb]) hnot

section Growth

variable {family : Family} {ns : Value} {name : String} {start c c' : Cluster}

/-- A child that is there stays there. -/
theorem Grows.isSome (h : Grows family ns name c c') {a : Address}
    (ha : a ∈ family.addresses ns name) (hsome : (c.find? a).isSome = true) :
    (c'.find? a).isSome = true := by
  cases h with
  | stays hstays => rw [(hstays a ha).1, hsome]
  | @adds _ _ b _ _ hnone _ hothers _ =>
    have hne : a ≠ b := by
      rintro rfl
      simp [hnone] at hsome
    rw [hothers a hne, hsome]

/-- The children stay closed under what comes before, and are created once, when one call makes them grow or
stay. -/
theorem Grows.grown (h : Grows family ns name c c') (hc : Grown family ns name start c) :
    Grown family ns name start c' := by
  cases h with
  | stays hstays =>
    constructor
    · intro before a after hsplit hsome b hb
      have ha : a ∈ family.addresses ns name := by simp [hsplit]
      have hb' : b ∈ family.addresses ns name := by simp [hsplit, hb]
      rw [(hstays a ha).1] at hsome
      rw [(hstays b hb').1]
      exact hc.closed before a after hsplit hsome b hb
    · intro a ha
      rw [(hstays a ha).1, (hstays a ha).2]
      exact hc.created a ha
  | @adds before after a hsplit hbefore hnone hsome hothers hjournal =>
    have hnodup := family.nodup_addresses ns name
    constructor
    · intro before' b after' hsplit' hb d hd
      have hkeep : ∀ d, (c.find? d).isSome = true → (c'.find? d).isSome = true := by
        intro d hd
        by_cases hda : d = a
        · rw [hda, hsome]
        · rw [hothers d hda, hd]
      -- a child that is not the new one has before it what it had before it
      by_cases hba : b = a
      · -- the new child is the only one at its place, so what is before it was fetched
        subst hba
        rw [hsplit] at hsplit' hnodup
        obtain rfl := eq_of_append_cons hnodup hsplit'
        exact hkeep d (hbefore d hd)
      · rw [hothers b hba] at hb
        exact hkeep d (hc.closed before' b after' hsplit' hb d hd)
    · intro b hb
      rw [hjournal, List.count_append, hc.created b hb]
      by_cases hba : b = a
      · subst hba
        simp [hnone, hsome]
      · have hab : ¬ a = b := fun e => hba e.symm
        simp [hothers b hba, hab]

end Growth

/-- The children are in order, and include all that any pass fetched. -/
structure Ordered (family : Family) (ns : Value) (name : String) (start : Cluster) (s : System) :
    Prop where
  sound : s.Sound (MayAsk family ns name)
  grown : Grown family ns name start s.cluster
  parent : ∀ parent, s.cluster.find? (family.parentAt ns name) = some parent →
    addressOf parent = .ok (family.parentAt ns name)
  readParent : ∀ h ∈ s.histories, ∀ parent ∈ h.reads (family.parentAt ns name),
    addressOf parent = .ok (family.parentAt ns name)
  fetched : ∀ h ∈ s.histories, ∀ a ∈ family.addresses ns name, h.reads a ≠ [] →
    (s.cluster.find? a).isSome = true

section Step

variable {family : Family} {ns : Value} {name : String} {start : Cluster} {s s' : System}

/-- A permitted call adds a child in turn or none, and keeps the parent under its name. -/
theorem Ordered.grows {h : History} {call : StoreCall} {reply : Except Failure Value} {c : Cluster}
    (hs : Ordered family ns name start s) (hh : h ∈ s.histories)
    (hmay : MayAsk family ns name h call) (hanswer : unreliable s.cluster call reply c) :
    Grows family ns name s.cluster c ∧
      ∀ parent, c.find? (family.parentAt ns name) = some parent →
        addressOf parent = .ok (family.parentAt ns name) := by
  have hsame : c = s.cluster → Grows family ns name s.cluster c ∧
      ∀ parent, c.find? (family.parentAt ns name) = some parent →
        addressOf parent = .ok (family.parentAt ns name) := by
    rintro rfl
    exact ⟨.stays fun _ _ => ⟨rfl, rfl⟩, hs.parent⟩
  have hmay := hmay (hs.readParent h hh)
  cases call with
  | get kind ns' name' => exact hsame (eq_of_fetching hanswer)
  -- passes over parents neither set a status nor annotate
  | updateStatus o => exact hmay.elim
  | annotate kind ns' name' annotations => exact hmay.elim
  | create object =>
    rcases hmay with ⟨before, a, after, hsplit, haddr, hfetched⟩
    have ha : a ∈ family.addresses ns name := by simp [hsplit]
    -- a call that is not answered may have taken effect all the same
    rcases after_unreliable hanswer with heq | heq
    · exact hsame heq
    · rcases create_cases s.cluster object with ⟨f, hrefused⟩ |
        ⟨b, stored, hb, hnone, -, -, -, hdone⟩
      · exact hsame (heq.trans (congrArg Prod.snd hrefused))
      · obtain rfl : a = b := Except.ok.inj (haddr.symm.trans hb)
        rw [perform, hdone] at heq
        subst heq
        refine ⟨.adds hsplit ?_ hnone (by simp [find?_withObject]) ?_ (by simp), ?_⟩
        · intro b hb
          exact hs.fetched h hh b (by simp [hsplit, hb]) (hfetched b hb)
        · intro b hne
          simp [find?_withObject, hne]
        · intro parent hparent
          refine hs.parent parent ?_
          simpa [find?_withObject, Family.parentAt_ne ha] using hparent
  | update o =>
    rcases after_unreliable hanswer with heq | heq
    · exact hsame heq
    · rcases update_cases s.cluster o with ⟨f, hrefused⟩ |
        ⟨a, stored, status, base, replaced, ha, hcurrent, -, hbase, hreplaced, hdone⟩
      · exact hsame (heq.trans (congrArg Prod.snd hrefused))
      · rw [perform, hdone] at heq
        subst heq
        rcases of_current hcurrent with ⟨hstored, -⟩
        refine ⟨.stays fun b hb => ⟨?_, ?_⟩, ?_⟩
        · by_cases hba : b = a
          · simp [find?_withObject, hba, hstored]
          · simp [find?_withObject, hba]
        · simp
        · intro parent hparent
          by_cases hpa : family.parentAt ns name = a
          · obtain rfl : replaced = parent := by simpa [find?_withObject, hpa] using hparent
            rw [addressOf_withVersion hreplaced, addressOf_setField hbase (by decide) (by decide), ha,
              hpa]
          · refine hs.parent parent ?_
            simpa [find?_withObject, hpa] using hparent

/-- One step of any interleaving keeps the children in order. -/
theorem Ordered.step (hs : Ordered family ns name start s)
    (hstep : System.Step (PassOver family ns name) (Edits family ns name) s s') :
    Ordered family ns name start s' := by
  have hsound := hstep.sound PassOver.asks hs.sound
  obtain ⟨hgrows, hparent⟩ : Grows family ns name s.cluster s'.cluster ∧
      ∀ parent, s'.cluster.find? (family.parentAt ns name) = some parent →
        addressOf parent = .ok (family.parentAt ns name) := by
    rcases hstep.change hs.sound with ⟨hout, -⟩ | ⟨hcluster, -⟩ |
      ⟨h, hh, call, reply, -, hmay, hanswer, -⟩
    · exact ⟨.stays fun a ha => ⟨hout.children a ha, by rw [hout.journal]⟩, hout.parent⟩
    · rw [hcluster]
      exact ⟨.stays fun _ _ => ⟨rfl, rfl⟩, hs.parent⟩
    · exact hs.grows hh hmay hanswer
  refine ⟨hsound, hgrows.grown hs.grown, hparent, ?_, ?_⟩
  · intro h' hh' parent hread
    rcases hstep.reads hs.sound hh' hread with ⟨h, hh, hold⟩ | hnow
    · exact hs.readParent h hh parent hold
    · exact hs.parent parent hnow
  · -- what was fetched existed then, and children are not removed
    intro h' hh' a ha hread
    rcases List.exists_mem_of_ne_nil _ hread with ⟨v, hv⟩
    rcases hstep.reads hs.sound hh' hv with ⟨h, hh, hold⟩ | hnow
    · exact hgrows.isSome ha (hs.fetched h hh a ha (List.ne_nil_of_mem hold))
    · exact hgrows.isSome ha (by simp [hnow])

end Step

/-! ## Runs -/

/-- What is closed under what comes before is a prefix. -/
theorem filter_isPrefix_of_closed {α : Type} (p : α → Bool) (l : List α)
    (hclosed : ∀ before a after, l = before ++ a :: after → p a = true → ∀ b ∈ before, p b = true) :
    l.filter p <+: l := by
  induction l with
  | nil => simp
  | cons x rest ih =>
    have hrest : ∀ before a after, rest = before ++ a :: after → p a = true →
        ∀ b ∈ before, p b = true := by
      intro before a after hsplit ha b hb
      exact hclosed (x :: before) a after (by simp [hsplit]) ha b (by simp [hb])
    by_cases hx : p x = true
    · simpa [hx, List.prefix_cons_inj] using ih hrest
    · -- nothing after a missing child exists
      have hnone : rest.filter p = [] := by
        refine List.filter_eq_nil_iff.mpr ?_
        intro a ha hpa
        rcases List.append_of_mem ha with ⟨before, after, hsplit⟩
        exact hx (hclosed (x :: before) a after (by simp [hsplit]) hpa x (by simp))
      simp [hx, hnone]

/-- Whatever passes over a parent run at the same time, and whatever fails and is edited in between: at
every moment the existing children are the first ones in the order of the tiers, each was created once
since there was none, and a create that finds its name taken fails and changes nothing. -/
theorem children_in_order {family : Family} {ns : Value} {name : String} {start : Cluster}
    {s : System} {past : List System}
    (hnone : ∀ a ∈ family.addresses ns name, start.find? a = none)
    (hparent : ∀ parent, start.find? (family.parentAt ns name) = some parent →
      addressOf parent = .ok (family.parentAt ns name))
    (hrun : System.Run (System.Step (PassOver family ns name) (Edits family ns name))
      (System.idle start) (s :: past)) :
    (family.addresses ns name).filter (fun a => (s.cluster.find? a).isSome) <+:
        family.addresses ns name ∧
      (∀ a ∈ family.addresses ns name, s.cluster.journal.count ⟨"create", a⟩ =
        start.journal.count ⟨"create", a⟩ + if (s.cluster.find? a).isSome then 1 else 0) ∧
      ∀ object a reply c, addressOf object = .ok a → (s.cluster.find? a).isSome = true →
        unreliable s.cluster (.create object) reply c → c = s.cluster ∧ ∃ f, reply = .error f := by
  have hfirst : Ordered family ns name start (System.idle start) := by
    refine ⟨System.sound_idle start, ⟨?_, ?_⟩, hparent, by simp [System.histories, System.idle],
      by simp [System.histories, System.idle]⟩
    · intro before a after hsplit hsome
      have hstart : start.find? a = none := hnone a (by simp [hsplit])
      exact absurd hsome (by simp [System.idle, hstart])
    · intro a ha
      simp [System.idle, hnone a ha]
  -- the invariant holds of the first state, which has no children, and every step keeps it
  have hs := hrun.invariant hfirst (fun _ _ => Ordered.step) s (by simp)
  refine ⟨filter_isPrefix_of_closed _ _ hs.grown.closed, hs.grown.created, ?_⟩
  intro object a reply c haddr htaken hanswer
  rcases create_taken haddr htaken with ⟨f, hrefused⟩
  rcases hanswer with ⟨rfl, rfl⟩ | ⟨f', rfl, rfl | rfl⟩
  · exact ⟨congrArg Prod.snd hrefused, ⟨f, none⟩, by simp [reported, perform, hrefused,
      Except.mapError]⟩
  · exact ⟨rfl, f', rfl⟩
  · exact ⟨congrArg Prod.snd hrefused, f', rfl⟩

/-! ### A race -/

def sampleDatabase : Value :=
  .object [("apiVersion", .text apiGroupVersion), ("kind", .text Kind.postgres),
    ("metadata", .object [("name", .text "pg"), ("namespace", .text "default")])]

def databaseCluster : Cluster := (Cluster.empty.put sampleDatabase).2

/-- Two passes race for the first child; a third one makes the second. -/
def raceMoves : List System.Move :=
  let pass := (Family.database.handler {}).reconcile {} ⟨.text "default", .text "pg"⟩
  [.begin pass, .begin pass] ++ (List.replicate 30 [.turn 0, .turn 1]).flatten ++
    .begin pass :: List.replicate 40 (.turn 2)

theorem race_in_order :
    ∃ s past, System.Run (System.Step (PassOver .database (.text "default") "pg")
        (Edits .database (.text "default") "pg")) (System.idle databaseCluster) (s :: past) ∧
      s.cluster.journal =
        [⟨"create", ⟨.text Kind.claim, .text "default", .text "pg"⟩⟩,
         ⟨"create", ⟨.text Kind.secret, .text "default", .text "pg"⟩⟩] ∧
      (Family.database.addresses (.text "default") "pg").filter
          (fun a => (s.cluster.find? a).isSome) <+:
        Family.database.addresses (.text "default") "pg" := by
  have hpass : PassOver .database (.text "default") "pg"
      ((Family.database.handler {}).reconcile {} ⟨.text "default", .text "pg"⟩) := ⟨{}, {}, rfl⟩
  have hmoves : ∀ move ∈ raceMoves, move.Allowed (PassOver .database (.text "default") "pg")
      (Edits .database (.text "default") "pg") := by
    intro move hmove
    simp only [raceMoves, List.mem_append, List.mem_cons, List.mem_flatten, List.mem_replicate,
      List.not_mem_nil, or_false] at hmove
    rcases hmove with (((rfl | rfl) | ⟨l, ⟨-, rfl⟩, hmove⟩)) | rfl | ⟨-, rfl⟩
    · exact hpass
    · exact hpass
    · simp only [List.mem_cons, List.not_mem_nil, or_false] at hmove
      rcases hmove with rfl | rfl <;> trivial
    · exact hpass
    · trivial
  have hrun := System.run_of_moves hmoves (System.idle databaseCluster)
  -- the run is played out, and its journal read off
  have hjournal : (((System.idle databaseCluster).played [] raceMoves).head?.map fun s =>
      s.cluster.journal) = some
        [⟨"create", ⟨.text Kind.claim, .text "default", .text "pg"⟩⟩,
         ⟨"create", ⟨.text Kind.secret, .text "default", .text "pg"⟩⟩] := by
    decide +kernel
  rcases Option.map_eq_some_iff.mp hjournal with ⟨s, hs, hjournal⟩
  rcases List.head?_eq_some_iff.mp hs with ⟨past, hstates⟩
  rw [hstates] at hrun
  refine ⟨s, past, hrun, hjournal, (children_in_order ?_ ?_ hrun).1⟩
  · decide +kernel
  · intro parent hparent
    obtain rfl := Option.some.inj hparent
    rfl

end Convergence

end Reconciler
