import Reconciler.Handler.Labelling
import Reconciler.Proofs.Descriptor
import Reconciler.Proofs.History
import Reconciler.Proofs.Ownership.Effects
import Reconciler.Proofs.Reads
import Reconciler.Proofs.Reliable

/-! # What a pass over a provisioner does

A pass reads the provisioner once and makes one write at most. Everything it decides, it decides on that
copy, so what it may write and what it comes to is a matter of its history.

Main definitions and statements:

* `Labelled`, `LabelMap`, `Describes`: what matters of a provisioner;
* `Labels`: what becomes of the labels;
* `MayLabel`, `Ends`: what a pass may call, and what it comes to, by what it was told;
* `reconcile_labels`: every pass keeps to that;
* `getsLabels_of_accepted`: what becomes of the provisioner when its write is accepted;
* `converge_comes`: a pass that nothing gets in the way of labels what is described and not labelled.
-/

namespace Reconciler

open Cluster

/-! ## Reads of parts -/

namespace Value

/-- A field of a field, where what is absent is read as an object without fields. -/
theorem part?_of_reads {v raw x : Value} {key key' : String} (hraw : v.fieldOrNull key = .ok raw)
    (hx : (raw.orElse (.object [])).fieldOrNull key' = .ok x) :
    x = (v.part? [key, key']).getD .null := by
  have hpart := part?_orElse raw key' []
  rcases fieldOr_eq_ok.mp hraw with ⟨fields, rfl, rfl⟩
  rcases fieldOr_eq_ok.mp hx with ⟨inner, hinner, rfl⟩
  rw [hinner] at hpart
  simp only [part?, field?, Option.bind_fun_some] at hpart ⊢
  rw [hpart]
  cases Fields.find? key fields <;> rfl

end Value

namespace Labelling

/-! ## Provisioners -/

def provisionerAt (id : Identity) : Address := ⟨.text Kind.provisioner, id.ns, id.name⟩

def labelPath (key : String) : Path := ["metadata", "labels", key]

def descriptorPath : Path := ["spec", "typeKindSpecific"]

/-- A label is a field of the labels. -/
theorem labelPath_eq (key : String) : labelPath key = ["metadata", "labels"] ++ [key] := rfl

/-- A provisioner with a `type` label. -/
def Labelled (provisioner : Value) : Prop :=
  (provisioner.part? (labelPath "type")).isSome = true

instance (provisioner : Value) : Decidable (Labelled provisioner) :=
  inferInstanceAs (Decidable (_ = true))

/-- A provisioner whose labels are an object, null or absent. -/
def LabelMap (provisioner : Value) : Prop :=
  Value.ObjectOrNone (provisioner.part? ["metadata", "labels"])

/-- The spec of a provisioner has a descriptor that is in the grammar, white space around it aside. -/
def Describes (provisioner : Value) (d : Descriptor) : Prop :=
  ∃ src, provisioner.part? descriptorPath = some (.text src) ∧ d.Grammatical ∧
    Stripped src.toList d.print.toList

/-- The labels are those from before, and those of a descriptor. -/
def Labels (d : Descriptor) (before after : Value) : Prop :=
  ∀ key, after.part? (labelPath key) =
    (Fields.find? key d.labels).or (before.part? (labelPath key))

/-- Who has a `type` label has an object of labels. -/
theorem Labelled.map {provisioner : Value} (h : Labelled provisioner) : LabelMap provisioner := by
  rw [Labelled, labelPath_eq, Value.part?_append] at h
  cases hlabels : provisioner.part? ["metadata", "labels"] with
  | none => exact .inl hlabels
  | some labels =>
    rw [hlabels] at h
    cases labels with
    | object fields => exact .inr (.inr ⟨fields, hlabels⟩)
    | _ => simp [Value.part?, Value.field?] at h

/-- Labels from a descriptor have a `type` among them. -/
theorem Labels.labelled {d : Descriptor} {before after : Value} (h : Labels d before after) :
    Labelled after := by
  rw [Labelled, h "type"]
  rfl

/-! ## What a pass reads -/

section Reads

variable {stored provisioner metadata raw spec descriptor : Value} {d : Descriptor}

/-- The labels are read where they are stored. -/
theorem read_labels (hfilled : stored.withDefault "metadata" (.object []) = .ok provisioner)
    (hmeta : provisioner.require "metadata" = .ok metadata)
    (hraw : metadata.fieldOrNull "labels" = .ok raw) :
    raw = (stored.part? ["metadata", "labels"]).getD .null := by
  have hsame := SameBut.filled hfilled ["annotations"] ["metadata", "labels"] (by decide)
  rcases Value.fieldOr_eq_ok.mp hraw with ⟨fields, rfl, rfl⟩
  rw [← hsame]
  simp only [Value.part?, Value.require_eq_ok.mp hmeta, Option.bind_some, Option.bind_fun_some]
  rfl

/-- The descriptor is read where it is stored. -/
theorem read_descriptor (hfilled : stored.withDefault "metadata" (.object []) = .ok provisioner)
    (hspec : Manifest.specOf provisioner = .ok spec)
    (hdescriptor : spec.fieldOrNull "typeKindSpecific" = .ok descriptor) :
    descriptor = (stored.part? descriptorPath).getD .null := by
  have hsame := SameBut.filled hfilled ["labels"] descriptorPath (by decide)
  simp only [Manifest.specOf, bind_eq_ok, pure_eq_ok] at hspec
  rcases hspec with ⟨raw, hraw, rfl⟩
  rw [← hsame]
  exact Value.part?_of_reads hraw hdescriptor

/-- A descriptor that was read and parsed is one that the spec has as a text in the grammar. -/
theorem describes_of_parse (h : descriptor = (stored.part? descriptorPath).getD .null)
    (hparse : Descriptor.parse descriptor = .ok d) : Describes stored d := by
  cases hpart : stored.part? descriptorPath with
  | none =>
    rw [h, hpart] at hparse
    cases hparse
  | some v =>
    obtain rfl : descriptor = v := by rw [h, hpart]; rfl
    cases descriptor with
    | text src => exact ⟨src, hpart, Descriptor.parse_text_eq_ok.mp hparse⟩
    | _ =>
      -- what is given but no text cannot be read
      simp only [Descriptor.parse] at hparse
      split at hparse <;> cases hparse

/-- Whether there is a `type` label is asked of the labels that are stored. -/
theorem labelled_of_holds {b : Bool} (hraw : raw = (stored.part? ["metadata", "labels"]).getD .null)
    (hholds : (raw.orElse (.object [])).holds "type" = .ok b) (hmap : LabelMap stored) :
    Labelled stored ↔ b = true := by
  rcases hmap.read with ⟨kept, hkept, hfind⟩
  rw [hraw, hkept] at hholds
  obtain rfl := Except.ok.inj hholds
  rw [Labelled, labelPath_eq, Value.part?_append, Fields.contains, hfind]
  simp only [Value.part?, Option.bind_fun_some]

/-- The labels of the descriptor are added to those that are stored. -/
theorem labels_withLabels {labeled : Value}
    (hraw : raw = (stored.part? ["metadata", "labels"]).getD .null)
    (h : withLabels provisioner metadata (raw.orElse (.object [])) d = .ok labeled) :
    Labels d stored labeled := by
  simp only [withLabels, bind_eq_ok] at h
  rcases h with ⟨kept, hkept, metadata', hmeta', hset⟩
  intro key
  -- what was kept are the labels that are stored
  have hstored : stored.part? (labelPath key) = Fields.find? key kept := by
    have hpart := Value.part?_orElse raw key []
    rw [Value.spread_eq_ok.mp hkept, hraw] at hpart
    rw [labelPath_eq, Value.part?_append]
    cases hlabels : stored.part? ["metadata", "labels"] with
    | none | some _ =>
      rw [hlabels] at hpart
      simpa [Value.part?, Value.field?] using hpart.symm
  have hafter : labeled.part? (labelPath key) =
      Fields.find? key (Fields.merge kept d.labels) := by
    simp only [labelPath, Value.part?, Value.field?_setField hset, Value.field?_setField hmeta',
      Option.bind_some, Option.bind_fun_some]
    rfl
  rw [hafter, hstored]
  have hnames : (d.labels.map Prod.fst).Nodup := by simp [Descriptor.labels]
  exact Fields.find?_merge hnames key kept

end Reads

/-! ## What a pass may do -/

abbrev fetching (id : Identity) : StoreCall := .get (.text Kind.provisioner) id.ns id.name

/-- What a pass reads is what it fetched first. -/
@[simp] theorem reads_fetched (id : Identity) (stored : Value) (rest : History) :
    History.reads (provisionerAt id) ((fetching id, .ok stored) :: rest) =
      stored :: History.reads (provisionerAt id) rest := by
  simp [History.reads, History.found?, provisionerAt]

/-- What a pass may call, in view of what it was told. -/
inductive MayLabel (id : Identity) : History → StoreCall → Prop where
  /-- The provisioner is read. -/
  | read : MayLabel id [] (fetching id)
  /-- A provisioner without a `type` label gets the labels of its descriptor. -/
  | label {stored labeled : Value} {d : Descriptor} :
      ¬ Labelled stored → Describes stored d → Labels d stored labeled →
      SameBut labelParts stored labeled →
      MayLabel id [(fetching id, .ok stored)] (.update labeled)

/-- What a pass comes to, by what it was told. -/
inductive Ends (id : Identity) : History → Directive → Prop where
  /-- The provisioner could not be read. -/
  | unread {f : Failure} : Ends id [(fetching id, .error f)] (handler.directiveOf id (.error f))
  /-- It has its labels. -/
  | left {stored : Value} :
      (LabelMap stored → Labelled stored) → Ends id [(fetching id, .ok stored)] .done
  /-- It cannot get any. -/
  | unlabelled {stored : Value} {f : Failure} :
      Ends id [(fetching id, .ok stored)] (.failed (some f))
  /-- The write failed. -/
  | refused {stored labeled : Value} {d : Descriptor} {f : Failure} : Describes stored d →
      Ends id [(fetching id, .ok stored), (.update labeled, .error f)]
        (handler.directiveOf id (.error f))
  /-- It got its labels. -/
  | labelled {stored labeled replaced : Value} {d : Descriptor} : Describes stored d →
      Ends id [(fetching id, .ok stored), (.update labeled, .ok replaced)] .done

/-- A conflict is no failure: the pass is made again. -/
theorem directiveOf_conflict {f : Failure} (hf : f.belongsTo .conflict = true) (id : Identity) :
    handler.directiveOf id (.error f) = .requeueNow := by
  have hself : handler.missesItself id f = false := by
    rcases f with ⟨fault, cause⟩
    cases fault with
    | notFound => cases hf
    | _ => rfl
  simp [Handler.directiveOf, hself, hf]

/-- Asking whether a name is there fails with a fault of no class, if at all. -/
theorem classless_holds (v : Value) (name : String) : Classless (v.holds name) := by
  cases v with
  | object | list | text => trivial
  | null | bool | integer | real => rfl

/-- Writing labels into a provisioner fails with a fault of no class, if at all. -/
theorem classless_withLabels (provisioner metadata labels : Value) (d : Descriptor) :
    Classless (withLabels provisioner metadata labels d) := by
  refine (Value.classless_spread _).andThen fun kept => ?_
  refine (Value.gives_setField _ _ _).classless.andThen fun metadata => ?_
  exact (Value.gives_setField _ _ _).classless

/-- Whatever else is wrong with a descriptor than its text, is a fault without a class. -/
theorem classless_of_parse {descriptor : Value} {f : Fault}
    (h : Descriptor.parse descriptor = .error f) (hother : ∀ complaint, f ≠ .build complaint) :
    f.class? = none := by
  cases descriptor with
  | text src =>
    rcases Descriptor.build_of_parse_text h with ⟨complaint, rfl⟩
    exact absurd rfl (hother complaint)
  | _ =>
    simp only [Descriptor.parse] at h
    split at h
    · cases h
      rfl
    · cases h
      exact absurd rfl (hother _)

/-- A pass that read the provisioner and met a fault of no class comes to the directive for that fault. -/
theorem Ends.classless {id : Identity} {stored : Value} {f : Fault} (hf : f.class? = none) :
    Ends id [(fetching id, .ok stored)] (handler.directiveOf id (.error ⟨f, none⟩)) := by
  rw [Handler.directiveOf_classless _ _ hf]
  exact .unlabelled

/-- A pass that read a provisioner without a `type` label and without a descriptor failed. -/
theorem Ends.barren {id : Identity} {h : History} {d : Directive} (hends : Ends id h d)
    (hread : h.reads (provisionerAt id) ≠ [])
    (hbarren : ∀ v ∈ h.reads (provisionerAt id), LabelMap v ∧ ¬ Labelled v ∧ ∀ d, ¬ Describes v d) :
    ∃ f, d = .failed (some f) := by
  cases hends with
  | unread => simp [History.reads, History.found?] at hread
  | @left stored hlabelled =>
    rcases hbarren stored (by simp) with ⟨hmap, hnot, -⟩
    exact absurd (hlabelled hmap) hnot
  | unlabelled => exact ⟨_, rfl⟩
  | @refused stored _ _ _ hdescribes | @labelled stored _ _ _ hdescribes =>
    exact absurd hdescribes ((hbarren stored (by simp)).2.2 _)

/-- A pass whose write was refused as a conflict is to be made again. -/
theorem Ends.conflict {id : Identity} {h : History} {d : Directive} (hends : Ends id h d)
    {call : StoreCall} {f : Failure} (hmem : (call, .error f) ∈ h) (hwrites : call.writes = true)
    (hf : f.belongsTo .conflict = true) : d = .requeueNow := by
  cases hends with
  | unread =>
    obtain ⟨rfl, rfl⟩ : call = fetching id ∧ f = _ := by simpa using hmem
    cases hwrites
  | @refused stored labeled _ g _ =>
    obtain ⟨rfl, rfl⟩ : call = .update labeled ∧ f = g := by simpa using hmem
    exact directiveOf_conflict hf id
  | left | unlabelled | labelled => simp at hmem

/-- Whatever a pass is told, it keeps to that. -/
theorem converge_labels (id : Identity) :
    Pass.Ensures noted (MayLabel id) (fun h r => Ends id h (handler.directiveOf id r)) (converge id)
      [] := by
  unfold converge
  refine Pass.ensures_must .read ?_ ?_
  · rintro stored h' rfl
    refine Pass.ensures_read (fun provisioner hfilled => ?_)
      fun f hf => .classless ((Value.gives_withDefault _ _ _).classless.of_error hf)
    refine Pass.ensures_read (fun metadata hmeta => ?_)
      fun f hf => .classless ((Value.classless_require _ _).of_error hf)
    refine Pass.ensures_read (fun raw hread => ?_)
      fun f hf => .classless ((Value.classless_fieldOrNull _ _).of_error hf)
    have hraw := read_labels hfilled hmeta hread
    refine Pass.ensures_read (fun b hholds => ?_)
      fun f hf => .classless ((classless_holds _ _).of_error hf)
    -- the two ways to go on: the label is there and the pass is over, or the descriptor is parsed
    have hlabelled := labelled_of_holds hraw hholds
    split
    · next hb => exact .left fun hmap => (hlabelled hmap).mpr hb
    · next hb =>
      refine Pass.ensures_read (fun spec hspec => ?_)
        fun f hf => .classless ((Manifest.classless_specOf _).of_error hf)
      refine Pass.ensures_read (fun descriptor hdescriptor => ?_)
        fun f hf => .classless ((Value.classless_fieldOrNull _ _).of_error hf)
      have hstored := read_descriptor hfilled hspec hdescriptor
      split
      · refine Pass.ensures_note ?_
          fun f hf => .classless ((classless_loggedIdentity _).of_error hf)
        exact Pass.ensures_tell .unlabelled
      · next f hother hparse =>
        exact .classless (classless_of_parse hparse fun complaint h => hother complaint h)
      · next d hparse =>
        refine Pass.ensures_read (fun labeled hlabeled => ?_)
          fun f hf => .classless ((classless_withLabels _ _ _ _).of_error hf)
        -- only here does the pass write, and what it writes is decided by what it read
        have hdescribes := describes_of_parse hstored hparse
        refine Pass.ensures_must ?_ ?_ ?_
        · exact .label (fun h => hb ((hlabelled h.map).mp h)) hdescribes
            (labels_withLabels hraw hlabeled)
            (sameBut_withLabels hfilled hmeta hlabeled)
        · rintro replaced h' rfl
          refine Pass.ensures_note ?_ ?_
          · exact Pass.ensures_tell (.labelled hdescribes)
          · -- what has labels to be read can be named
            intro f hf
            rcases Value.fieldOr_eq_ok.mp hread with ⟨fields, rfl, -⟩
            cases hf
        · rintro f h' rfl
          exact .refused hdescribes
  · rintro f h' rfl
    exact .unread

/-- The handler of provisioners keeps to this as well, with the call and the end of each pass. -/
theorem reconcile_labels (settings : Settings) (id : Identity) :
    SafePass.Ensures noted (MayLabel id) (Ends id) (handler.reconcile settings id) [] :=
  (Handler.reconcile_ensures settings handler id []).mpr (converge_labels id)

/-! ## What a write does -/

/-- A provisioner with a `type` label is stored. -/
def LabelledIn (id : Identity) (c : Cluster) : Prop :=
  ∃ stored, c.find? (provisionerAt id) = some stored ∧ Labelled stored

/-- A provisioner without a `type` label gets the labels of the descriptor that is stored with it, and nothing
else is changed. -/
def GetsLabels (id : Identity) (c c' : Cluster) : Prop :=
  ∃ stored after d, c.find? (provisionerAt id) = some stored ∧ ¬ Labelled stored ∧
    Describes stored d ∧ c'.find? (provisionerAt id) = some after ∧ Labels d stored after ∧
    ReadsSameBut (versionPart :: labelParts) stored after ∧
    ∀ b, b ≠ provisionerAt id → c'.find? b = c.find? b

section Write

variable {id : Identity} {c c' : Cluster} {stored labeled v : Value} {d : Descriptor}

/-- A write that is accepted gives the stored provisioner its labels. -/
theorem getsLabels_of_accepted (hcopied : Copied (provisionerAt id) c stored)
    (hlabelled : ¬ Labelled stored) (hdescribes : Describes stored d) (hlabels : Labels d stored labeled)
    (hsame : SameBut labelParts stored labeled) (hok : (c.perform (.update labeled)).1 = .ok v) :
    GetsLabels id c (c.perform (.update labeled)).2 := by
  rcases hcopied.of_accepted hsame (by decide) (.inl rfl) hok with ⟨haddr, hstored⟩
  rcases update_cases c labeled with ⟨f, hrefused⟩ |
    ⟨a, current, status, base, replaced, ha, hcurrent, hstatus, hbase, hreplaced, hdone⟩
  · simp [perform, hrefused] at hok
  · obtain rfl : provisionerAt id = a := Except.ok.inj (haddr.symm.trans ha)
    obtain rfl : stored = current := Option.some.inj (hstored.symm.trans (of_current hcurrent).1)
    rw [perform, hdone]
    refine ⟨stored, replaced, d, hstored, hlabelled, hdescribes, ?_, ?_,
      reads_update hsame hstatus hbase hreplaced, fun b hb => ?_⟩
    · simp [find?_withObject]
    · intro key
      -- the server changes versions and the status, and neither is a label
      rw [sameBut_withVersion hreplaced (labelPath key) (by simp [Apart, versionPart, labelPath]),
        SameBut.set hbase (labelPath key) (by simp [Apart, labelPath]), hlabels key]
    · simp [find?_withObject, hb]

/-- A write of the operator leaves a provisioner with a `type` label. -/
theorem GetsLabels.labelledIn {c c' : Cluster} (h : GetsLabels id c c') : LabelledIn id c' := by
  rcases h with ⟨_, after, d, -, -, -, hafter, hlabels, -⟩
  exact ⟨after, hafter, hlabels.labelled⟩

/-- With a `type` label there is nothing to write. -/
theorem GetsLabels.not_labelledIn {c c' : Cluster} (h : GetsLabels id c c') : ¬ LabelledIn id c := by
  rcases h with ⟨stored, _, _, hstored, hnot, -⟩
  rintro ⟨v, hv, hlabelled⟩
  obtain rfl : stored = v := Option.some.inj (hstored.symm.trans hv)
  exact hnot hlabelled

end Write

/-! ## A pass that nothing gets in the way of -/

section Alone

variable {id : Identity} {c : Cluster} {stored : Value} {d : Descriptor}

/-- Labels can be written into a provisioner that has a name. -/
theorem exists_withLabels {metadata name : Value} (hmeta : stored.field? "metadata" = some metadata)
    (hname : metadata.field? "name" = some name) (kept : Fields) (d : Descriptor) :
    ∃ labeled, withLabels stored metadata (.object kept) d = .ok labeled := by
  obtain ⟨metadata', hmetadata'⟩ :=
    Value.exists_setField hname "labels" (.object (Fields.merge kept d.labels))
  obtain ⟨labeled, hlabeled⟩ := Value.exists_setField hmeta "metadata" metadata'
  refine ⟨labeled, ?_⟩
  simp only [withLabels, Value.spread, hmetadata', hlabeled, bind, Except.bind]

/-- The descriptor of a provisioner that is described can be read. -/
theorem Describes.read {metadata : Value} (h : Describes stored d)
    (hmeta : stored.field? "metadata" = some metadata) :
    ∃ spec descriptor, Manifest.specOf stored = .ok spec ∧
      spec.fieldOrNull "typeKindSpecific" = .ok descriptor ∧ Descriptor.parse descriptor = .ok d := by
  rcases h with ⟨src, hpart, hgrammatical, hstripped⟩
  simp only [descriptorPath, Value.part?, Option.bind_fun_some] at hpart
  rcases Option.bind_eq_some_iff.mp hpart with ⟨spec, hspec, hfield⟩
  -- a spec with a field in it is an object
  have hobject : Value.ObjectOrNone (stored.field? "spec") := by
    cases spec with
    | object fields => exact .inr (.inr ⟨fields, hspec⟩)
    | _ => cases hfield
  rcases Manifest.specOf_of_field? hmeta hobject with ⟨fields, hread, hfields⟩
  have hdescriptor : Fields.find? "typeKindSpecific" fields = some (.text src) := by
    rw [hfields, hspec]
    exact hfield
  refine ⟨.object fields, .text src, hread, ?_, Descriptor.parse_text_eq_ok.mpr ⟨hgrammatical, hstripped⟩⟩
  rw [Value.fieldOrNull, Value.fieldOr, hdescriptor]
  rfl

/-- A pass over a provisioner that is described and not labelled labels it. -/
theorem converge_comes (hn : (provisionerAt id).nameable = true) (hc : Tidy c)
    (hstored : c.find? (provisionerAt id) = some stored) (hmap : LabelMap stored)
    (hlabelled : ¬ Labelled stored) (hdescribes : Describes stored d) :
    Comes (fun c' r => r = .done ∧ GetsLabels id c c') (converge id) c := by
  have hcopied := hc.copied hstored
  rcases addressOf_eq_ok.mp hcopied.address with ⟨metadata, hmeta, -, -, hname⟩
  rcases hc.versioned _ _ hstored with ⟨n, -, hversion⟩
  have hfilled : stored.withDefault "metadata" (.object []) = .ok stored :=
    Value.withDefault_of_field? hmeta _
  have hrequire : stored.require "metadata" = .ok metadata := Value.require_eq_ok.mpr hmeta
  have hread : metadata.fieldOrNull "labels" = .ok ((metadata.field? "labels").getD .null) :=
    Value.fieldOr_eq_getD hname
  have hraw := read_labels hfilled hrequire hread
  rcases hmap.read with ⟨kept, hkept, -⟩
  rw [← hraw] at hkept
  have hholds : (Value.object kept).holds "type" = .ok (Fields.contains "type" kept) := rfl
  have hno : ¬ Fields.contains "type" kept = true := by
    rw [← labelled_of_holds hraw (hkept ▸ hholds) hmap]
    exact hlabelled
  rcases hdescribes.read hmeta with ⟨spec, descriptor, hspec, hdescriptor, hparse⟩
  rcases exists_withLabels hmeta hname kept d with ⟨labeled, hlabeled⟩
  have hsame := sameBut_withLabels hfilled hrequire hlabeled
  have hlabels := labels_withLabels hraw (hkept ▸ hlabeled)
  -- the write carries the version that is stored
  rcases update_of_version hn (hsame.addressOf (by decide) hcopied.address) hstored hversion
    ((hsame.versionOf (by decide)).trans hversion) with ⟨_, _, replaced, -, -, hupdate⟩
  have hgets : GetsLabels id c (c.perform (.update labeled)).2 :=
    getsLabels_of_accepted hcopied hlabelled hdescribes hlabels hsame (congrArg Prod.fst hupdate)
  rw [perform, hupdate] at hgets
  -- every question of the pass has its answer by now, so the pass is followed step by step
  unfold converge
  refine comes_call (get_of_find? hn hstored) ?_
  refine Pass.ensures_value hfilled ?_
  refine Pass.ensures_value hrequire ?_
  refine Pass.ensures_value hread ?_
  rw [hkept]
  refine Pass.ensures_value hholds ?_
  rw [if_neg hno]
  refine Pass.ensures_value hspec ?_
  refine Pass.ensures_value hdescriptor ?_
  rw [hparse]
  refine Pass.ensures_value hlabeled ?_
  refine comes_call hupdate ?_
  refine comes_note hname ?_
  exact Pass.ensures_tell ⟨_, rfl, rfl, hgets⟩

/-- One pass over a provisioner, from its first question to its directive, when nothing gets in its way. -/
def Undisturbed (settings : Settings) (id : Identity) (c : Cluster) (d : Directive) (c' : Cluster) :
    Prop :=
  Program.Leads (facing reliable) (handler.reconcile settings id) c (.done d) c'

/-- A pass that nothing gets in the way of comes to an end. -/
theorem exists_undisturbed (settings : Settings) (id : Identity) (c : Cluster) :
    ∃ d c', Undisturbed settings id c d c' :=
  Program.exists_leads_done (fun s op => ⟨_, _, s.facing_answered op⟩) _ _

end Alone

end Labelling

end Reconciler
