import Reconciler.Proofs.Api.Server
import Reconciler.Proofs.Ownership.Effects

/-! # What servers make of store calls

A cluster answers a store call itself. A server answers the call to its interface that the store makes of it:
by the interface, the method and the arguments it finds the object that is meant, and what it then does with
it is what the cluster does.

Main definitions and statements:

* `StoreCall.Sensible`: store calls about objects of the supported kinds;
* `Cluster.Orderly`: clusters whose objects are stored under their own addresses, with versions;
* `Settled`: a server comes to the same object as the cluster, or to a refusal that means the same fault;
* `settled_of_apt`: so it does with every sensible call;
* `Cluster.Patchable`: clusters in which everything can be annotated, and that sensible calls leave so.
-/

namespace Reconciler

open Cluster ApiServer
open Provisioning (Consistent)

/-! ## Sensible calls -/

/-- An address of a supported kind, with a namespace and a name. -/
def Address.Supported (a : Address) : Prop :=
  ∃ entry ∈ Served.kinds, ∃ ns name : String, a = ⟨.text entry.1, .text ns, .text name⟩

theorem Address.Supported.nameable {a : Address} (h : a.Supported) : a.nameable = true := by
  obtain ⟨entry, -, ns, name, rfl⟩ := h
  rfl

def Texts (fields : Fields) : Prop :=
  ∀ field ∈ fields, ∃ s, field.2 = .text s

/-- A store call that a server can make sense of. An object says itself which one it is; annotations are
texts; and there is no status of a secret. -/
inductive StoreCall.Sensible : StoreCall → Prop where
  | get {kind ns name : Value} : Address.Supported ⟨kind, ns, name⟩ → Sensible (.get kind ns name)
  | create {a : Address} {object : Value} :
      Cluster.addressOf object = .ok a → a.Supported → Sensible (.create object)
  | update {a : Address} {object : Value} :
      Cluster.addressOf object = .ok a → a.Supported → Sensible (.update object)
  | updateStatus {a : Address} {object : Value} :
      Cluster.addressOf object = .ok a → a.Supported → a.kind ≠ .text Kind.secret →
      Sensible (.updateStatus object)
  | annotate {kind ns name : Value} {annotations : Fields} :
      Address.Supported ⟨kind, ns, name⟩ → Texts annotations →
      Sensible (.annotate kind ns name (.object annotations))

/-- The annotations of an object are an object, if there are any. -/
def Annotatable (object : Value) : Prop :=
  object.part? ["metadata", "annotations"] = none ∨
    ∃ fields, object.part? ["metadata", "annotations"] = some (.object fields)

/-- A sensible call, which only annotates what can be annotated. -/
structure Apt (c : Cluster) (call : StoreCall) : Prop where
  sensible : call.Sensible
  annotatable : ∀ kind ns name annotations, call = .annotate kind ns name annotations →
    ∀ stored, c.find? ⟨kind, ns, name⟩ = some stored → Annotatable stored

/-- A cluster whose objects are stored under their own addresses, with versions. -/
structure Cluster.Orderly (c : Cluster) : Prop where
  consistent : Consistent c
  versioned : ∀ a object, c.find? a = some object → ∃ version, versionOf object = some version

/-- A call leaves a cluster orderly. -/
theorem Cluster.Orderly.perform {c : Cluster} (h : c.Orderly) (call : StoreCall) :
    (c.perform call).2.Orderly := by
  cases hwrites : call.writes with
  | false =>
    cases call with
    | get kind ns name =>
      rw [Cluster.perform, get_snd]
      exact h
    | _ => cases hwrites
  | true =>
    -- a write stores one object, with a version, under the address that it has itself
    rcases perform_cases c hwrites with ⟨f, hrefused⟩ | ⟨a, v, operation, hversion, -, haddr, hdone⟩
    · rw [hrefused]
      exact h
    · rw [hdone]
      constructor
      · intro b object hobject
        simp only [find?_recorded, find?_withObject, find?_bumped] at hobject
        split at hobject
        · next hb =>
          obtain rfl := Option.some.inj hobject
          rw [hb]
          exact haddr h.consistent
        · exact h.consistent b object hobject
      · intro b object hobject
        simp only [find?_recorded, find?_withObject, find?_bumped] at hobject
        split at hobject
        · obtain rfl := Option.some.inj hobject
          exact ⟨_, hversion⟩
        · exact h.versioned b object hobject

/-! ## The methods of the client -/

/-- A client that has its five methods for every built-in kind, but for the status of a Secret. -/
structure Methods.Complete (methods : Methods) : Prop where
  reads : ∀ kind api resource, (kind, Served.builtin api resource) ∈ Served.builtinKinds →
    methods api s!"read_namespaced_{resource}" = true
  creates : ∀ kind api resource, (kind, Served.builtin api resource) ∈ Served.builtinKinds →
    methods api s!"create_namespaced_{resource}" = true
  replaces : ∀ kind api resource, (kind, Served.builtin api resource) ∈ Served.builtinKinds →
    methods api s!"replace_namespaced_{resource}" = true
  statuses : ∀ kind api resource, (kind, Served.builtin api resource) ∈ Served.builtinKinds →
    kind ≠ Kind.secret → methods api s!"replace_namespaced_{resource}_status" = true
  patches : ∀ kind api resource, (kind, Served.builtin api resource) ∈ Served.builtinKinds →
    methods api s!"patch_namespaced_{resource}" = true

/-! ## Which object is meant -/

namespace ApiStore

/-- The kind of a call is the one it was made for. -/
theorem of_ofKind {kind : Value} {k : String} {served : Served}
    (h : Served.ofKind kind = .ok (k, served)) :
    kind = .text k ∧
      (Served.kinds.find? fun entry => entry.2 = served).map (·.1) = some k := by
  -- no two kinds are served by the same endpoints, which is decided over the table
  have htable : ∀ entry ∈ Served.kinds,
      (Served.kinds.find? fun other => other.2 = entry.2).map (·.1) = some entry.1 := by
    decide +kernel
  refine ⟨?_, htable _ (served_of_ofKind h)⟩
  cases kind with
  | text name =>
    simp only [Served.ofKind, Served.ofKind.unsupported] at h
    split at h
    · cases h
      rfl
    · cases h
  | _ =>
    simp only [Served.ofKind, Served.ofKind.unsupported] at h
    split at h <;> cases h

/-- Every supported kind is served. -/
theorem exists_ofKind {a : Address} (h : a.Supported) :
    ∃ k served, Served.ofKind a.kind = .ok (k, served) := by
  obtain ⟨entry, hentry, ns, name, rfl⟩ := h
  have htable : ∀ entry ∈ Served.kinds, Served.kinds.lookup entry.1 = some entry.2 := by
    decide +kernel
  exact ⟨entry.1, entry.2, by simp only [Served.ofKind, htable entry hentry]⟩

/-- An object with an address says it to the store as well. -/
theorem addressOf_eq {object : Value} {a : Address} (h : Cluster.addressOf object = .ok a) :
    addressOf object = .ok a := by
  obtain ⟨metadata, hmeta, hkind, hns, hname⟩ := addressOf_eq_ok.mp h
  simp only [addressOf, Value.fieldOr_of_field? hmeta, Value.require_eq_ok.mpr hkind, hns,
    Value.require_eq_ok.mpr hname, bind, Except.bind]
  rfl

/-- A client that is complete has a method for every operation but the replacement of a Secret's status. -/
theorem offer_of_complete {methods : Methods} (hcomplete : methods.Complete) {c : StoreCall} {o : Operation}
    (h : operation c = .ok o) (hsecret : ¬ (c.operation = "update_status" ∧ o.kind = Kind.secret)) :
    methods.offer o.call = true := by
  obtain ⟨-, -, hserved, hverb⟩ := of_operation h
  unfold Methods.offer
  split
  case h_2 => rfl
  case h_1 api resource hbuiltin =>
    -- a kind that is served by a built-in interface is a built-in one
    have hkind : (o.kind, Served.builtin api resource) ∈ Served.builtinKinds := by
      rw [hbuiltin] at hserved
      rcases List.mem_append.mp hserved with hcustom | hkind
      · simp [Served.customKinds] at hcustom
      · exact hkind
    simp only [ApiCall.method, hbuiltin]
    split
    · exact hcomplete.reads _ _ _ hkind
    · exact hcomplete.creates _ _ _ hkind
    · exact hcomplete.replaces _ _ _ hkind
    · next hstatus => exact hcomplete.statuses _ _ _ hkind fun hk => hsecret ⟨hverb hstatus, hk⟩
    · exact hcomplete.patches _ _ _ hkind

/-- Every sensible call becomes a call to a method of the client. -/
theorem exists_operation {methods : Methods} (hcomplete : methods.Complete) {call : StoreCall}
    (h : call.Sensible) : ∃ o, operation call = .ok o ∧ methods.offer o.call = true := by
  -- an object with an address and a supported kind can be sent
  have hobject : ∀ {a : Address} {object : Value} (name : String) (verb : Verb),
      Cluster.addressOf object = .ok a → a.Supported → ∃ k served,
        onObject name verb object = .ok ⟨name, k, a, ⟨verb, served, a.ns, a.name, object⟩⟩ ∧
        a.kind = .text k := by
    intro a object name verb haddr ha
    obtain ⟨k, served, hserved⟩ := exists_ofKind ha
    refine ⟨k, served, ?_, (of_ofKind hserved).1⟩
    simp only [onObject, addressOf_eq haddr, hserved, bind, Except.bind]
    rfl
  -- the one call that has no method is the status of a Secret, and that is not sensible
  obtain ⟨o, ho, hsecret⟩ : ∃ o, operation call = .ok o ∧
      ¬ (call.operation = "update_status" ∧ o.kind = Kind.secret) := by
    cases h with
    | @get kind ns name ha | @annotate kind ns name annotations ha =>
      obtain ⟨k, served, hserved⟩ := exists_ofKind ha
      refine ⟨_, by simp only [operation, hserved, bind, Except.bind]; rfl, ?_⟩
      simp [StoreCall.operation]
    | create haddr ha | update haddr ha =>
      obtain ⟨k, served, ho, -⟩ := hobject _ _ haddr ha
      exact ⟨_, ho, by simp [StoreCall.operation]⟩
    | updateStatus haddr ha hsecret =>
      obtain ⟨k, served, ho, hk⟩ := hobject _ _ haddr ha
      refine ⟨_, ho, ?_⟩
      rintro ⟨-, rfl⟩
      exact hsecret hk
  exact ⟨o, ho, offer_of_complete hcomplete ho hsecret⟩

/-! ## What is done with it -/

/-- How an answer of the cluster is counted. -/
def labelOf : Except Fault Value → String
  | .ok _ => "success"
  | .error (.notFound _ _ _) => "not_found"
  | .error (.alreadyExists _) | .error (.conflict _) => "conflict"
  | .error _ => "error"

/-- The cluster and a server settle a call in the same way: both come to the same object and the same cluster,
or the cluster to a fault, and the server to the status that means this fault. -/
inductive Settled (c : Cluster) (call : StoreCall) (o : Operation) : Prop where
  | object {v : Value} {c' : Cluster} :
      c.perform call = (.ok v, c') → serve c o.call = .ok (v, c') → Settled c call o
  | refused {f : Fault} {code : Int} :
      c.perform call = (.error f, c) → serve c o.call = .error code →
      (∀ refusal status, status.same (.integer code) = true →
        o.refused refusal status = (labelOf (.error f), f)) →
      Settled c call o

section Settled

variable {c : Cluster} {call : StoreCall} {o : Operation} {a : Address} {object stored v : Value}
variable {k : String} {served : Served}

/-- What is missing from the cluster is missing on the server, with the status that says so. -/
theorem settled_missing (hperform : c.perform call = (.error (Fault.missing o.address), c))
    (hserve : serve c o.call = .error 404) : Settled c call o := by
  refine .refused hperform hserve ?_
  intro refusal status hstatus
  simp [Operation.refused, hstatus, labelOf, Fault.missing]

/-- A name that is taken is refused with the status that means so for a creation. -/
theorem settled_taken (hname : o.name = "create")
    (hperform : c.perform call = (.error (.alreadyExists s!"{o.address.shown} already exists"), c))
    (hserve : serve c o.call = .error 409) : Settled c call o := by
  refine .refused hperform hserve ?_
  intro refusal status hstatus
  have hother := same_integer_of_ne hstatus (show (409 : Int) ≠ 404 by decide)
  simp [Operation.refused, hstatus, hother, hname, labelOf]

/-- A conflict status means a lost race for every operation but a creation. -/
theorem settled_stale (hname : o.name ≠ "create")
    (hperform : c.perform call =
      (.error (.conflict s!"{o.address.shown} was modified concurrently"), c))
    (hserve : serve c o.call = .error 409) : Settled c call o := by
  refine .refused hperform hserve ?_
  intro refusal status hstatus
  have hother := same_integer_of_ne hstatus (show (409 : Int) ≠ 404 by decide)
  simp [Operation.refused, hstatus, hother, hname, labelOf]

/-- What is saved by both is the same. -/
theorem settled_saved (write : String) (a : Address) {read : Except Fault Value}
    (hread : read = .ok object) (hversion : withVersion object c.nextVersion = .ok v)
    (hperform : c.perform call = (.ok v, (c.bumped.withObject a v).recorded write a))
    (hserve : serve c o.call = save c write a read) : Settled c call o := by
  refine .object hperform ?_
  rw [hserve, save, hread]
  simp only [bind, Except.bind, hversion]

/-- Whether a replacement is stale is decided in the same way. -/
theorem current_eq {version : Value} (hn : a.nameable = true) (hfind : c.find? a = some stored)
    (hversion : versionOf stored = some version) (haddr : Cluster.addressOf object = .ok a) :
    c.current a object = if stale stored object
      then .error (.conflict s!"{a.shown} was modified concurrently") else .ok stored := by
  obtain ⟨metadata, hmeta, -, -, hname⟩ := addressOf_eq_ok.mp haddr
  -- both read the version that is sent from the same place
  have hread : metadata.fieldOrNull "resourceVersion" =
      .ok ((metadata.field? "resourceVersion").getD .null) := Value.fieldOr_eq_getD hname
  have hsent : versionOf object = metadata.field? "resourceVersion" := by
    simp [versionOf, hmeta]
  obtain ⟨storedMeta, hstoredMeta, hfield⟩ : ∃ m, stored.field? "metadata" = some m ∧
      m.field? "resourceVersion" = some version := by
    simpa [versionOf, Option.bind_eq_some_iff] using hversion
  simp only [current, checked_eq_ok.mpr ⟨hn, rfl⟩, hfind, Value.require_eq_ok.mpr hmeta, hread,
    Value.require_eq_ok.mpr hstoredMeta, Value.require_eq_ok.mpr hfield, stale, hsent, hversion, bind,
    Except.bind]
  -- no version, a null version and the stored version are all current
  cases metadata.field? "resourceVersion" with
  | none => rfl
  | some sent =>
    by_cases hnull : sent.isNull = true
    · simp [hnull, pure, Except.pure]
    · by_cases hsame : sent.same version = true
      · simp [hnull, hsame, pure, Except.pure]
      · simp [hnull, hsame, throw, throwThe, MonadExceptOf.throw]

/-- A call that creates nothing is about the object it names. -/
theorem target_eq {verb : Verb} (hverb : verb ≠ .create) (body : Value)
    (hk : (Served.kinds.find? fun entry => entry.2 = served).map (·.1) = some k) (ns name : Value) :
    (⟨verb, served, ns, name, body⟩ : ApiCall).target = some ⟨.text k, ns, name⟩ := by
  simp [ApiCall.target, ApiCall.kind?, hk, hverb]

/-- A read is settled in the same way. -/
theorem settled_get {kind ns name : Value} (ha : Address.Supported ⟨kind, ns, name⟩)
    (ho : operation (.get kind ns name) = .ok o) : Settled c (.get kind ns name) o := by
  simp only [operation, bind_eq_ok, pure_eq_ok] at ho
  obtain ⟨⟨k, served⟩, hserved, rfl⟩ := ho
  obtain ⟨rfl, hk⟩ := of_ofKind hserved
  have htarget := target_eq (show Verb.read ≠ .create by decide) .null hk ns name
  cases hfind : c.find? ⟨.text k, ns, name⟩ with
  | none =>
    refine settled_missing (get_of_absent ha.nameable hfind) ?_
    simp only [serve, htarget, hfind]
  | some stored =>
    refine .object (get_of_find? ha.nameable hfind) ?_
    simp only [serve, htarget, hfind]

/-- An object with an address is completed in the same way wherever the namespace is filled in. -/
theorem placed_completed (haddr : Cluster.addressOf object = .ok a) :
    (placed a.ns object >>= completed) = completed object := by
  obtain ⟨metadata, hmeta, -, hns, hname⟩ := addressOf_eq_ok.mp haddr
  obtain ⟨filled, hfilled⟩ := Value.exists_withDefault hname "namespace" (.text "default")
  -- the namespace that is filled in is the one the address has anyway
  have hfilled' : metadata.withDefault "namespace" a.ns = .ok filled := by
    cases hfield : metadata.field? "namespace" with
    | some w =>
      rw [Value.withDefault_of_field? hfield] at hfilled ⊢
      exact hfilled
    | none =>
      have hread : metadata.fieldOr "namespace" (.text "default") =
          .ok ((metadata.field? "namespace").getD (.text "default")) := Value.fieldOr_eq_getD hname
      rw [hread, hfield, Option.getD_none] at hns
      rw [← Except.ok.inj hns, hfilled]
  obtain ⟨placedObject, hplaced⟩ := Value.exists_setField hmeta "metadata" filled
  have hmeta' := Value.field?_setField hplaced
  have hkept := Value.field?_withDefault hfilled
  simp only [placed, completed, Value.require_eq_ok.mpr hmeta, hfilled', hplaced,
    Value.withDefault_of_field? hmeta, Value.withDefault_of_field? hmeta',
    Value.require_eq_ok.mpr hmeta', Value.withDefault_of_field? hkept, hfilled,
    Value.setField_setField hplaced, bind, Except.bind]

/-- A creation is settled in the same way, whoever fills in the namespace. -/
theorem settled_create (haddr : Cluster.addressOf object = .ok a) (ha : a.Supported)
    (ho : operation (.create object) = .ok o) : Settled c (.create object) o := by
  simp only [operation, onObject, addressOf_eq haddr, bind_eq_ok, pure_eq_ok, Except.ok.injEq] at ho
  obtain ⟨_, rfl, ⟨k, served⟩, hserved, rfl⟩ := ho
  obtain ⟨hkind, hk⟩ := of_ofKind hserved
  obtain ⟨metadata, hmeta, -, -, hname⟩ := addressOf_eq_ok.mp haddr
  -- the name of an object to create is taken from the object
  have htarget : (⟨.create, served, a.ns, a.name, object⟩ : ApiCall).target = some a := by
    obtain ⟨kind, ns, name⟩ := a
    obtain rfl : kind = .text k := hkind
    simp [ApiCall.target, ApiCall.kind?, hk, hmeta, hname]
  -- a free name gets the completed object on both sides, and a taken one is refused on both
  cases hfind : c.find? a with
  | none =>
    obtain ⟨filled, hfilled, hfilledAddr, -⟩ := exists_completed haddr
    obtain ⟨v, hv⟩ := exists_withVersion hfilledAddr c.nextVersion
    have hstored : Cluster.addressOf v = .ok a := by rw [addressOf_withVersion hv, hfilledAddr]
    have hchecked : checked a = .ok a := checked_eq_ok.mpr ⟨ha.nameable, rfl⟩
    refine settled_saved "create" a ((placed_completed haddr).trans hfilled) hv ?_ ?_
    · simp only [Cluster.perform, Cluster.create, Cluster.put, haddr, hchecked, hfind, hfilled, hv, hstored,
        settle, bind, Except.bind]
      rfl
    · simp only [serve, htarget, hfind]
  | some stored =>
    refine settled_taken rfl (create_of_present haddr ha.nameable (by simp [hfind])) ?_
    simp only [serve, htarget, hfind]

/-- The operation on an object goes to where the object is stored. -/
theorem of_onObject {name : String} {verb : Verb} (haddr : Cluster.addressOf object = .ok a)
    (hverb : verb ≠ .create) (ho : onObject name verb object = .ok o) :
    o.name = name ∧ o.address = a ∧ o.call.target = some a ∧ o.call.verb = verb ∧
      o.call.body = object := by
  simp only [onObject, addressOf_eq haddr, bind_eq_ok, pure_eq_ok, Except.ok.injEq] at ho
  obtain ⟨_, rfl, ⟨k, served⟩, hserved, rfl⟩ := ho
  obtain ⟨hkind, hk⟩ := of_ofKind hserved
  refine ⟨rfl, rfl, ?_, rfl, rfl⟩
  rw [target_eq hverb _ hk, ← hkind]

/-- A replacement is settled in the same way when both replace the stored object by the same. -/
theorem settled_replaced (h : c.Orderly) (ha : a.Supported) (haddr : Cluster.addressOf object = .ok a)
    (hname : o.name ≠ "create") (haddress : o.address = a) (write : String)
    (change change' : Value → Except Fault Value)
    (hchange : ∀ stored, c.find? a = some stored →
      ∃ base, change stored = .ok base ∧ change' stored = .ok base ∧ Cluster.addressOf base = .ok a)
    (hperform : c.perform call = c.settle (do
      let stored ← c.current a object
      let base ← change stored
      let v ← withVersion base c.nextVersion
      return (v, (c.bumped.withObject a v).recorded write a)))
    (hnone : c.find? a = none → serve c o.call = .error 404)
    (hsome : ∀ stored, c.find? a = some stored → serve c o.call =
      if stale stored object then .error 409 else save c write a (change' stored)) :
    Settled c call o := by
  cases hfind : c.find? a with
  | none =>
    refine settled_missing ?_ (hnone hfind)
    rw [hperform, haddress]
    simp only [Cluster.current, checked_eq_ok.mpr ⟨ha.nameable, rfl⟩, hfind, bind, Except.bind]
    rfl
  | some stored =>
    obtain ⟨version, hversion⟩ := h.versioned a stored hfind
    have hcurrent := current_eq ha.nameable hfind hversion haddr
    have hserve := hsome stored hfind
    -- both look for the same version before they store anything
    by_cases hstale : stale stored object = true
    · rw [if_pos hstale] at hcurrent hserve
      refine settled_stale hname ?_ hserve
      rw [hperform, hcurrent, haddress]
      rfl
    · rw [if_neg hstale] at hcurrent hserve
      obtain ⟨base, hbase, hbase', hbaseAddr⟩ := hchange stored hfind
      obtain ⟨v, hv⟩ := exists_withVersion hbaseAddr c.nextVersion
      refine settled_saved write a hbase' hv ?_ hserve
      simp only [hperform, hcurrent, hbase, hv, bind, Except.bind]
      rfl

/-- A replacement of everything but the status is settled as the cluster settles it. -/
theorem settled_update (h : c.Orderly) (haddr : Cluster.addressOf object = .ok a) (ha : a.Supported)
    (ho : operation (.update object) = .ok o) : Settled c (.update object) o := by
  obtain ⟨hname, haddress, htarget, hverb, hbody⟩ := of_onObject haddr (by decide) ho
  -- the status that the stored object has is put into the sent one
  refine settled_replaced h ha haddr (by rw [hname]; decide) haddress "update"
    (fun stored => do object.setField "status" (← stored.fieldOrNull "status"))
    (fun stored => object.setField "status" ((stored.field? "status").getD .null))
    ?_ ?_ ?_ ?_
  · intro stored hfind
    obtain ⟨_, hmeta, -⟩ := addressOf_eq_ok.mp haddr
    obtain ⟨_, hstoredMeta, -⟩ := addressOf_eq_ok.mp (h.consistent a stored hfind)
    obtain ⟨base, hbase⟩ := Value.exists_setField hmeta "status" ((stored.field? "status").getD .null)
    have hstatus : stored.fieldOrNull "status" = .ok ((stored.field? "status").getD .null) :=
      Value.fieldOr_eq_getD hstoredMeta
    refine ⟨base, by simpa only [hstatus, bind, Except.bind] using hbase, hbase, ?_⟩
    rw [addressOf_setField hbase (by decide) (by decide), haddr]
  · simp only [Cluster.perform, Cluster.update, haddr, bind_assoc]
    rfl
  · intro hfind
    simp only [serve, htarget, hfind, hverb]
  · intro stored hfind
    simp only [serve, htarget, hfind, hverb, hbody]

/-- A replacement of the status, and of nothing else, is settled as the cluster settles it. -/
theorem settled_updateStatus (h : c.Orderly) (haddr : Cluster.addressOf object = .ok a)
    (ha : a.Supported) (ho : operation (.updateStatus object) = .ok o) :
    Settled c (.updateStatus object) o := by
  obtain ⟨hname, haddress, htarget, hverb, hbody⟩ := of_onObject haddr (by decide) ho
  -- the sent status is put into the stored object
  refine settled_replaced h ha haddr (by rw [hname]; decide) haddress "update_status"
    (fun stored => do stored.setField "status" (← object.fieldOrNull "status"))
    (fun stored => stored.setField "status" ((object.field? "status").getD .null))
    ?_ ?_ ?_ ?_
  · intro stored hfind
    have hstoredAddr := h.consistent a stored hfind
    obtain ⟨_, hmeta, -⟩ := addressOf_eq_ok.mp haddr
    obtain ⟨_, hstoredMeta, -⟩ := addressOf_eq_ok.mp hstoredAddr
    obtain ⟨base, hbase⟩ :=
      Value.exists_setField hstoredMeta "status" ((object.field? "status").getD .null)
    have hstatus : object.fieldOrNull "status" = .ok ((object.field? "status").getD .null) :=
      Value.fieldOr_eq_getD hmeta
    refine ⟨base, by simpa only [hstatus, bind, Except.bind] using hbase, hbase, ?_⟩
    rw [addressOf_setField hbase (by decide) (by decide), hstoredAddr]
  · simp only [Cluster.perform, Cluster.updateStatus, haddr, bind_assoc]
    rfl
  · intro hfind
    simp only [serve, htarget, hfind, hverb]
  · intro stored hfind
    simp only [serve, htarget, hfind, hverb, hbody]

/-- A patch of texts sets them. -/
theorem patchedFields_of_texts {changes : Fields} (h : Texts changes) (fields : Fields) :
    Value.patchedFields fields changes = Fields.merge fields changes := by
  induction changes generalizing fields with
  | nil => rfl
  | cons change rest ih =>
    obtain ⟨key, value⟩ := change
    obtain ⟨s, rfl⟩ := h (key, value) List.mem_cons_self
    have hrest : Texts rest := fun field hfield => h field (List.mem_cons_of_mem _ hfield)
    rw [Value.patchedFields, ih hrest]
    rfl

/-- A patch of one field changes that field. -/
theorem patched_field (fields changes : Fields) (key : String) :
    (Value.object fields).patched (.object [(key, .object changes)]) =
      .object (Fields.insert key (((Fields.find? key fields).getD .null).patched (.object changes)) fields) := by
  simp [Value.patched, Value.patchedFields, Value.isNull, Value.fieldsOf]

/-- Annotating an object patches its annotations. -/
theorem exists_annotated {metadata : Value} {annotations : Fields}
    (hmeta : stored.field? "metadata" = some metadata) (hname : metadata.field? "name" = some v)
    (hannotatable : Annotatable stored) (htexts : Texts annotations) :
    ∃ filled held merged annotated, metadata.withDefault "annotations" (.object []) = .ok filled ∧
      filled.require "annotations" = .ok held ∧ held.overlay annotations = .ok merged ∧
      filled.setField "annotations" merged = .ok annotated ∧
      stored.setField "metadata" annotated =
        .ok (stored.patched (.object [("metadata", .object [("annotations", .object annotations)])])) := by
  -- annotations are looked up below the metadata
  have hpart : stored.part? ["metadata", "annotations"] = metadata.field? "annotations" := by
    simp [Value.part?, hmeta]
  rw [Annotatable, hpart] at hannotatable
  obtain ⟨filled, hfilled⟩ := Value.exists_withDefault hname "annotations" (.object [])
  -- what is held is what the patch takes for the fields that are there
  obtain ⟨fields, hheld, hfields⟩ : ∃ fields,
      (metadata.field? "annotations").getD (.object []) = .object fields ∧
      ((metadata.field? "annotations").getD .null).fieldsOf = fields := by
    rcases hannotatable with hnone | ⟨fields, hfields⟩
    · exact ⟨[], by rw [hnone]; rfl, by rw [hnone]; rfl⟩
    · exact ⟨fields, by rw [hfields]; rfl, by rw [hfields]; rfl⟩
  have hfound : filled.field? "annotations" = some (.object fields) := by
    rw [Value.field?_withDefault hfilled, hheld]
  obtain ⟨annotated, hannotated⟩ :=
    Value.exists_setField hfound "annotations" (.object (Fields.merge fields annotations))
  refine ⟨filled, _, _, annotated, hfilled, Value.require_eq_ok.mpr hfound, rfl, hannotated, ?_⟩
  cases stored with
  | object storedFields =>
    cases metadata with
    | object metaFields =>
      have hset : (Value.object metaFields).setField "annotations" (.object (Fields.merge fields annotations)) =
          .ok annotated := by
        rw [← hannotated]
        obtain ⟨_, hobject, rfl⟩ := Value.withDefault_eq_ok.mp hfilled
        cases hobject
        -- a default that is filled in is set again at once
        split
        · rfl
        · simp only [Value.setField, Fields.insert_insert]
      have hmetaFind : Fields.find? "metadata" storedFields = some (.object metaFields) := hmeta
      have hpatched : ((Fields.find? "annotations" metaFields).getD .null).patched (.object annotations) =
          .object (Fields.merge fields annotations) := by
        have hheldFields : ((Fields.find? "annotations" metaFields).getD .null).fieldsOf = fields := hfields
        rw [Value.patched, patchedFields_of_texts htexts, hheldFields]
      obtain rfl := Except.ok.inj hset
      rw [patched_field, hmetaFind, Option.getD_some, patched_field, hpatched]
      rfl
    | _ => simp [Value.field?] at hname
  | _ => simp [Value.field?] at hmeta

/-- An object that can be annotated is stored as the patch leaves it, and can be annotated again. -/
theorem annotate_of_present {annotations : Fields} (hn : a.nameable = true)
    (hfind : c.find? a = some stored) (haddr : Cluster.addressOf stored = .ok a)
    (hannotatable : Annotatable stored) (htexts : Texts annotations) :
    ∃ v, withVersion (stored.patched (.object [("metadata", .object [("annotations", .object annotations)])]))
        c.nextVersion = .ok v ∧ Annotatable v ∧
      c.annotate a (.object annotations) = (.ok v, (c.bumped.withObject a v).recorded "annotate" a) := by
  obtain ⟨metadata, hmeta, -, -, hname⟩ := addressOf_eq_ok.mp haddr
  obtain ⟨filled, held, merged, annotated, hfilled, hheld, hmerged, hannotated, hset⟩ :=
    exists_annotated hmeta hname hannotatable htexts
  -- the new version goes beside the annotations, so these are found again
  have hmarkedMeta := Value.field?_setField hset
  have hkept := Value.field?_setField hannotated
  obtain ⟨versioned, hversioned⟩ := Value.exists_setField hkept "resourceVersion" c.nextVersion
  obtain ⟨v, hv⟩ := Value.exists_setField hmarkedMeta "metadata" versioned
  have hversion : withVersion
      (stored.patched (.object [("metadata", .object [("annotations", .object annotations)])]))
      c.nextVersion = .ok v := by
    simp only [withVersion, Value.require_eq_ok.mpr hmarkedMeta, hversioned, hv, bind, Except.bind]
  refine ⟨v, hversion, .inr ?_, ?_⟩
  · have hfield : versioned.field? "annotations" = some merged := by
      rw [Value.field?_setField_of_ne hversioned (by decide), hkept]
    cases held with
    | object fields =>
      obtain rfl := Except.ok.inj hmerged
      refine ⟨Fields.merge fields annotations, ?_⟩
      simp [Value.part?, Value.field?_setField hv, hfield]
    | _ => cases hmerged
  · simp only [Cluster.annotate, checked_eq_ok.mpr ⟨hn, rfl⟩, hfind, Value.require_eq_ok.mpr hmeta, hfilled,
      hheld, Value.asObject, hmerged, hannotated, hset, hversion, settle, bind, Except.bind]
    rfl

/-- The merging of annotations is settled as the cluster settles it. -/
theorem settled_annotate (h : c.Orderly) {kind ns name : Value} {annotations : Fields}
    (ha : Address.Supported ⟨kind, ns, name⟩) (htexts : Texts annotations)
    (hannotatable : ∀ stored, c.find? ⟨kind, ns, name⟩ = some stored → Annotatable stored)
    (ho : operation (.annotate kind ns name (.object annotations)) = .ok o) :
    Settled c (.annotate kind ns name (.object annotations)) o := by
  simp only [operation, bind_eq_ok, pure_eq_ok] at ho
  obtain ⟨⟨k, served⟩, hserved, rfl⟩ := ho
  obtain ⟨rfl, hk⟩ := of_ofKind hserved
  have htarget := target_eq (show Verb.patch ≠ .create by decide)
    (.object [("metadata", .object [("annotations", .object annotations)])]) hk ns name
  -- what is missing cannot be patched on either side
  cases hfind : c.find? ⟨.text k, ns, name⟩ with
  | none =>
    refine settled_missing ?_ ?_
    · simp only [Cluster.perform, Cluster.annotate, checked_eq_ok.mpr ⟨ha.nameable, rfl⟩, hfind, settle, bind,
        Except.bind]
      rfl
    · simp only [serve, htarget, hfind]
  | some stored =>
    obtain ⟨v, hv, -, hperform⟩ := annotate_of_present ha.nameable hfind (h.consistent _ stored hfind)
      (hannotatable stored hfind) htexts
    refine settled_saved "annotate" ⟨.text k, ns, name⟩ rfl hv hperform ?_
    simp only [serve, htarget, hfind]

/-- A server settles every sensible call as the cluster does. -/
theorem settled_of_apt (h : c.Orderly) (hapt : Apt c call) (ho : operation call = .ok o) :
    Settled c call o := by
  cases hapt.sensible with
  | get ha => exact settled_get ha ho
  | create haddr ha => exact settled_create haddr ha ho
  | update haddr ha => exact settled_update h haddr ha ho
  | updateStatus haddr ha _ => exact settled_updateStatus h haddr ha ho
  | annotate ha htexts => exact settled_annotate h ha htexts (hapt.annotatable _ _ _ _ rfl) ho

end Settled

end ApiStore

/-! ## Clusters in which everything can be annotated -/

def Cluster.Patchable (c : Cluster) : Prop :=
  ∀ a object, c.find? a = some object → Annotatable object

/-- A call that sends no other object. -/
def StoreCall.Patchable : StoreCall → Prop
  | .create object | .update object => Annotatable object
  | _ => True

/-- Only the annotations of an object matter. -/
theorem annotatable_congr {v w : Value}
    (h : w.part? ["metadata", "annotations"] = v.part? ["metadata", "annotations"]) (hv : Annotatable v) :
    Annotatable w := by
  rw [Annotatable, h]
  exact hv

/-- A new version makes no difference. -/
theorem annotatable_withVersion {v w version : Value} (h : withVersion v version = .ok w)
    (hv : Annotatable v) : Annotatable w :=
  annotatable_congr (sameBut_withVersion h _ (by decide)) hv

theorem annotatable_setField {v w value : Value} {key : String} (h : v.setField key value = .ok w)
    (hkey : key ≠ "metadata") (hv : Annotatable v) : Annotatable w := by
  refine annotatable_congr ?_ hv
  simp [Value.part?, Value.field?_setField_of_ne h hkey.symm]

/-- What a cluster stores can be annotated if all that was stored and sent could. -/
theorem Cluster.Patchable.perform {c : Cluster} {call : StoreCall} (h : c.Patchable) (horderly : c.Orderly)
    (hcall : call.Sensible) (hpatchable : call.Patchable) : (c.perform call).2.Patchable := by
  -- a write that stores something annotatable leaves everything else as it is
  have hstored : ∀ {a : Address} {v : Value} {operation : String}, Annotatable v →
      Cluster.Patchable ((c.bumped.withObject a v).recorded operation a) := by
    intro a v operation hv b object hobject
    simp only [find?_recorded, find?_withObject, find?_bumped] at hobject
    split at hobject
    · rwa [← Option.some.inj hobject]
    · exact h b object hobject
  cases hcall with
  | get ha =>
    rw [Cluster.perform, get_snd]
    exact h
  | @create a object haddr ha =>
    rcases create_cases c object with ⟨f, hrefused⟩ | ⟨b, stored, -, -, -, -, hcompletes, hdone⟩
    · rw [Cluster.perform, hrefused]
      exact h
    · rw [Cluster.perform, hdone]
      -- completing an object leaves its annotations alone
      obtain ⟨before, after, hbefore, hafter, hkeys⟩ := hcompletes.metadata
      refine hstored (annotatable_congr ?_ hpatchable)
      simp [Value.part?, hbefore, hafter, hkeys "annotations" (by decide) (by decide) (by decide)]
  | @update a object haddr ha =>
    rcases update_cases c object with ⟨f, hrefused⟩ | ⟨b, stored, status, base, v, -, -, -, hbase, hv, hdone⟩
    · rw [Cluster.perform, hrefused]
      exact h
    · rw [Cluster.perform, hdone]
      exact hstored (annotatable_withVersion hv (annotatable_setField hbase (by decide) hpatchable))
  | @updateStatus a object haddr ha =>
    rcases updateStatus_cases c object with
      ⟨f, hrefused⟩ | ⟨b, stored, status, base, v, -, hcurrent, -, hbase, hv, hdone⟩
    · rw [Cluster.perform, hrefused]
      exact h
    · rw [Cluster.perform, hdone]
      have hbefore : Annotatable stored := h b stored (of_current hcurrent).1
      exact hstored (annotatable_withVersion hv (annotatable_setField hbase (by decide) hbefore))
  | @annotate kind ns name annotations ha htexts =>
    cases hfind : c.find? ⟨kind, ns, name⟩ with
    | none =>
      rcases annotate_cases c ⟨kind, ns, name⟩ (.object annotations) with
        ⟨f, hrefused⟩ | ⟨_, stored, _, _, -, hsome, -⟩
      · rw [Cluster.perform, hrefused]
        exact h
      · rw [hfind] at hsome
        cases hsome
    | some stored =>
      obtain ⟨v, -, hv, hdone⟩ := ApiStore.annotate_of_present ha.nameable hfind
        (horderly.consistent _ stored hfind) (h _ stored hfind) htexts
      rw [Cluster.perform, hdone]
      exact hstored hv

/-- Where everything can be annotated, all sensible calls are apt. -/
theorem Cluster.Patchable.apt {c : Cluster} {call : StoreCall} (h : c.Patchable) (hcall : call.Sensible) :
    Apt c call :=
  ⟨hcall, fun _ _ _ _ _ stored hfind => h _ stored hfind⟩

end Reconciler
