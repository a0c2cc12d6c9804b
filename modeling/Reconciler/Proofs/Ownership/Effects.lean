import Reconciler.Proofs.Convergence.Sharing
import Reconciler.Proofs.Ownership.Writes
import Reconciler.Proofs.Provisioning.Owners

/-! # What writes leave of stored objects

Every write that a cluster accepts stores one object under its own address, with a version nobody has seen
yet. So who holds a copy with the version of the stored object holds that object, and a replacement that is
made from a copy is only accepted when nothing happened to the object since it was read.

Main definitions and statements:

* `perform_cases`: all that a write can do;
* `Renews`: changes that give everything new a new version, as all calls do;
* `Copied`: what a pass knows of an object it once read;
* `OwnWrite.of_mayWrite`: an accepted write of a pass is one to the stored object;
* `OwnWrite.keeps`: and it leaves everything of that object but the parts it sets.
-/

namespace Reconciler

open Provisioning (Consistent)

namespace Cluster

variable {c c' : Cluster} {a : Address} {call : StoreCall}

/-! ## Writes -/

/-- Adding annotations to an object changes nothing else. -/
theorem annotate_cases (c : Cluster) (a : Address) (annotations : Value) :
    (∃ f, c.annotate a annotations = (.error f, c)) ∨
      ∃ changes stored marked replaced, annotations.asObject = .ok changes ∧
        c.find? a = some stored ∧ SameBut [["metadata", "annotations"]] stored marked ∧
        (changes ≠ [] →
          SameBut (changes.map fun change => ["metadata", "annotations", change.1]) stored marked) ∧
        withVersion marked c.nextVersion = .ok replaced ∧
        c.annotate a annotations =
          (.ok replaced, (c.bumped.withObject a replaced).recorded "annotate" a) := by
  refine (settle_cases c _).imp_right ?_
  rintro ⟨v, after, h, hsettle⟩
  simp only [bind_eq_ok] at h
  rcases h with ⟨b, hb, h⟩
  rcases checked_eq_ok.mp hb with ⟨-, rfl⟩
  cases hfind : c.find? a with
  | none => simp [hfind, throw, throwThe, MonadExceptOf.throw] at h
  | some stored =>
    simp only [hfind, bind_eq_ok, Value.require_eq_ok, pure_eq_ok,
      Prod.mk.injEq] at h
    rcases h with ⟨metadata, hmeta, filled, hfilled, held, hheld, changes, hchanges, merged, hmerged,
      annotated, hannotated, marked, hmarked, replaced, hreplaced, rfl, rfl⟩
    refine ⟨changes, stored, marked, replaced, hchanges, rfl, ?_, ?_, hreplaced, hsettle⟩
    · -- all of it happens within the metadata, where annotations that are absent are filled in first
      have hsame : SameBut ([["annotations"]].map ("metadata" :: ·)) stored marked :=
        .within (by simp) hmeta hmarked ((SameBut.filled hfilled []).trans (.set hannotated))
      exact hsame
    · intro hsome
      cases held with
      | object fields =>
        obtain rfl := Except.ok.inj hmerged
        -- the annotations that are there stay, in the metadata and in the object
        have hadded := SameBut.within (by simpa using hsome) hheld hannotated
          (sameBut_merge fields changes)
        have hmetadata : SameBut ((changes.map fun change => [change.1]).map ("annotations" :: ·))
            metadata annotated := by
          rcases List.exists_mem_of_ne_nil _ hsome with ⟨change, hchange⟩
          refine SameBut.trans ((SameBut.filled hfilled [change.1]).mono ?_) hadded
          simpa using ⟨_, hchange⟩
        simpa [Function.comp_def] using SameBut.within (by simpa using hsome) hmeta hmarked hmetadata
      | _ => cases hmerged

/-- A write is refused and changes nothing, or it stores one object under its own address, with the next
version. -/
theorem perform_cases (c : Cluster) (hwrites : call.writes = true) :
    (∃ f, c.perform call = (.error f, c)) ∨
      ∃ a v operation, versionOf v = some c.nextVersion ∧
        call.addressed = .ok a ∧ (Consistent c → addressOf v = .ok a) ∧
        c.perform call = (.ok v, (c.bumped.withObject a v).recorded operation a) := by
  -- only an update of the status and an annotation start from what is stored, and need it to be consistent
  cases call with
  | get kind ns name => cases hwrites
  | create object =>
    refine (create_cases c object).imp_right ?_
    rintro ⟨a, stored, haddr, -, hstored, hversion, -, hdone⟩
    exact ⟨a, stored, _, hversion, haddr, fun _ => hstored, hdone⟩
  | update object =>
    refine (update_cases c object).imp_right ?_
    rintro ⟨a, stored, status, base, replaced, haddr, -, -, hbase, hreplaced, hdone⟩
    refine ⟨a, replaced, _, versionOf_withVersion hreplaced, haddr, fun _ => ?_, hdone⟩
    rw [addressOf_withVersion hreplaced, addressOf_setField hbase (by decide) (by decide), haddr]
  | updateStatus object =>
    refine (updateStatus_cases c object).imp_right ?_
    rintro ⟨a, stored, status, base, replaced, haddr, hcurrent, -, hbase, hreplaced, hdone⟩
    refine ⟨a, replaced, _, versionOf_withVersion hreplaced, haddr, fun hc => ?_, hdone⟩
    rw [addressOf_withVersion hreplaced, addressOf_setField hbase (by decide) (by decide),
      hc a stored (of_current hcurrent).1]
  | annotate kind ns name annotations =>
    refine (annotate_cases c _ annotations).imp_right ?_
    rintro ⟨changes, stored, marked, replaced, -, hstored, hsame, -, hreplaced, hdone⟩
    refine ⟨_, replaced, _, versionOf_withVersion hreplaced, rfl, fun hc => ?_, hdone⟩
    rw [addressOf_withVersion hreplaced]
    exact hsame.addressOf (by decide) (hc _ stored hstored)

/-- A call that changes something succeeded. -/
theorem perform_of_changed (hchanged : (c.perform call).2 ≠ c) :
    call.writes = true ∧ ∃ v, (c.perform call).1 = .ok v := by
  cases hwrites : call.writes with
  | false =>
    cases call with
    | get kind ns name => exact absurd (get_snd c _) hchanged
    | _ => cases hwrites
  | true =>
    rcases perform_cases c hwrites with ⟨f, hrefused⟩ | ⟨a, v, operation, -, -, -, hdone⟩
    · exact absurd (congrArg Prod.snd hrefused) hchanged
    · exact ⟨rfl, v, congrArg Prod.fst hdone⟩

/-! ## New versions -/

/-- A change of a cluster in which every object that is new or changed has a version that is new. -/
structure Renews (c c' : Cluster) : Prop where
  version : c.version ≤ c'.version
  consistent : Consistent c → Consistent c'
  objects : ∀ a v, c'.find? a = some v → c.find? a = some v ∨
    ∃ n, c.version < n ∧ n ≤ c'.version ∧ versionOf v = some (.text (toString n))

theorem Renews.refl (c : Cluster) : Renews c c :=
  ⟨Nat.le_refl _, id, fun _ _ => .inl⟩

/-- Whoever makes it, a call is such a change. -/
theorem renews_perform (c : Cluster) (call : StoreCall) : Renews c (c.perform call).2 := by
  by_cases hchanged : (c.perform call).2 = c
  · rw [hchanged]
    exact .refl c
  · rcases perform_cases c (perform_of_changed hchanged).1 with ⟨f, hrefused⟩ |
      ⟨a, v, operation, hversion, -, haddr, hdone⟩
    · exact absurd (congrArg Prod.snd hrefused) hchanged
    · rw [hdone]
      refine ⟨by simp, fun hc => hc.of_change ?_ (haddr hc), fun b w hw => ?_⟩
      · intro b
        simp [find?_withObject]
      · -- the object that was stored has the next version, all others are as they were
        rw [find?_recorded, find?_withObject] at hw
        split at hw
        · obtain rfl := Option.some.inj hw
          exact .inr ⟨c.version + 1, by simp, by simp, hversion⟩
        · exact .inl hw

/-- Every object is stored under its own address, with a version that was given out. -/
structure Tidy (c : Cluster) : Prop where
  consistent : Consistent c
  versioned : ∀ a v, c.find? a = some v → Versioned c v

theorem Renews.tidy (h : Renews c c') (hc : Tidy c) : Tidy c' := by
  refine ⟨h.consistent hc.consistent, fun a v hv => ?_⟩
  rcases h.objects a v hv with hold | ⟨n, -, hn, hversion⟩
  · exact (hc.versioned a v hold).mono h.version
  · exact ⟨n, hn, hversion⟩

/-! ## Copies -/

/-- A copy of an object that was once stored at an address. With the version of the stored object it is
that object. -/
structure Copied (a : Address) (c : Cluster) (copy : Value) : Prop where
  address : addressOf copy = .ok a
  versioned : Versioned c copy
  current : ∀ v, c.find? a = some v → versionOf v = versionOf copy → v = copy

theorem Tidy.copied (hc : Tidy c) {v : Value} (hv : c.find? a = some v) : Copied a c v :=
  ⟨hc.consistent a v hv, hc.versioned a v hv, fun _ hw _ => Option.some.inj (hw.symm.trans hv)⟩

/-- A copy stays one, since what is new has another version. -/
theorem Copied.renewed {copy : Value} (h : Copied a c copy) (hrenews : Renews c c') :
    Copied a c' copy := by
  refine ⟨h.address, h.versioned.mono hrenews.version, fun v hv hsame => ?_⟩
  rcases hrenews.objects a v hv with hold | ⟨n, hlt, -, hversion⟩
  · exact h.current v hold hsame
  · exact absurd (hsame.symm.trans hversion) (h.versioned.ne_of_lt hlt)

/-- A replacement that was made from a copy, without moving it, is only accepted where the copy is stored. -/
theorem Copied.of_accepted {copy object v : Value} {parts : List Path} (h : Copied a c copy)
    (hsame : SameBut parts copy object)
    (hparts : ∀ path ∈ versionPart :: addressParts, Apart parts path)
    (hcall : call = .update object ∨ call = .updateStatus object)
    (hok : (c.perform call).1 = .ok v) : call.addressed = .ok a ∧ c.find? a = some copy := by
  have haddr : addressOf object = .ok a :=
    hsame.addressOf (fun path hpath => hparts path (by simp [hpath])) h.address
  have hversion : versionOf object = versionOf copy := hsame.versionOf (hparts _ (by simp))
  have hversioned : Versioned c object := by
    rw [Versioned, hversion]
    exact h.versioned
  -- the version that was sent is that of the copy, and it is accepted as that of the stored object
  have hcurrent : ∀ b stored, addressOf object = .ok b → c.current b object = .ok stored →
      c.find? a = some copy := by
    intro b stored hb hcurrent
    obtain rfl : a = b := Except.ok.inj (haddr.symm.trans hb)
    have hstored := (of_current hcurrent).1
    rw [hstored, h.current stored hstored ((versionOf_of_current hversioned hcurrent).trans hversion)]
  rcases hcall with rfl | rfl
  · rcases update_cases c object with ⟨f, hrefused⟩ | ⟨b, stored, _, _, _, hb, hstored, -⟩
    · simp [perform, hrefused] at hok
    · exact ⟨haddr, hcurrent b stored hb hstored⟩
  · rcases updateStatus_cases c object with ⟨f, hrefused⟩ | ⟨b, stored, _, _, _, hb, hstored, -⟩
    · simp [perform, hrefused] at hok
    · exact ⟨haddr, hcurrent b stored hb hstored⟩

/-! ## What is left -/

/-- A field that is set to what is read elsewhere reads the same. -/
theorem reads_setField {v w x o : Value} {key : String} (hx : w.fieldOrNull key = .ok x)
    (hset : v.setField key x = .ok o) (rest : Path) :
    (o.part? (key :: rest)).getD .null = (w.part? (key :: rest)).getD .null := by
  rcases Value.fieldOr_eq_ok.mp hx with ⟨fields, rfl, rfl⟩
  rw [Value.part?, Value.part?, Value.field?_setField hset]
  simp only [Value.field?]
  cases Fields.find? key fields with
  | some y => rfl
  | none =>
    -- null has no parts beside itself
    cases rest with
    | nil => rfl
    | cons next rest => rfl

section Replaced

variable {stored object status base replaced version : Value} {parts : List Path}

/-- An object that is replaced except for its status keeps what the new one shares with it. -/
theorem reads_update (hsame : SameBut parts stored object)
    (hstatus : stored.fieldOrNull "status" = .ok status)
    (hbase : object.setField "status" status = .ok base)
    (hreplaced : withVersion base version = .ok replaced) :
    ReadsSameBut (versionPart :: parts) stored replaced := by
  intro path hpath
  have hrest : Apart parts path := hpath.mono fun _ hp => List.mem_cons_of_mem _ hp
  rw [sameBut_withVersion hreplaced path (hpath.mono (by simp))]
  cases path with
  | nil => exact absurd hpath (not_apart_nil (by simp))
  | cons key rest =>
    by_cases hkey : key = "status"
    · subst hkey
      exact reads_setField hstatus hbase rest
    · have hfield := Value.field?_setField_of_ne hbase hkey
      rw [Value.part?, hfield, ← Value.part?]
      exact hsame.reads _ hrest

/-- An object of which the status is replaced keeps the rest, and of the status what the new one shares
with it. -/
theorem reads_updateStatus (hsame : SameBut parts stored object)
    (hstatus : object.fieldOrNull "status" = .ok status)
    (hbase : stored.setField "status" status = .ok base)
    (hreplaced : withVersion base version = .ok replaced) :
    ReadsSameBut (versionPart :: parts) stored replaced := by
  intro path hpath
  have hrest : Apart parts path := hpath.mono fun _ hp => List.mem_cons_of_mem _ hp
  rw [sameBut_withVersion hreplaced path (hpath.mono (by simp))]
  cases path with
  | nil => exact absurd hpath (not_apart_nil (by simp))
  | cons key rest =>
    by_cases hkey : key = "status"
    · subst hkey
      rw [reads_setField hstatus hbase rest]
      exact hsame.reads _ hrest
    · have hfield := Value.field?_setField_of_ne hbase hkey
      rw [Value.part?, hfield, ← Value.part?]

end Replaced

end Cluster

open Cluster

/-! ## Own writes -/

section OwnWrites

variable {seen : Address → Value → Prop} {c : Cluster} {a : Address} {call : StoreCall}
variable {parts : List Path} {v : Value}

/-- A write of a pass that is accepted is one to the object that is stored. -/
theorem OwnWrite.of_mayWrite {h : History} (hmay : MayWrite h call)
    (hseen : ∀ a, ∀ copy ∈ h.reads a, seen a copy)
    (hcopies : ∀ a, ∀ copy ∈ h.reads a, Copied a c copy) (hwrites : call.writes = true)
    (hok : (c.perform call).1 = .ok v) :
    ∃ a parts, call.addressed = .ok a ∧ OwnWrite seen (fun b o => c.find? b = o) a call parts := by
  rcases hmay hwrites with ⟨a, parts, hwrite⟩
  cases hwrite with
  | @create _ object _ =>
    -- an accepted creation found its name free
    rcases create_cases c object with ⟨f, hrefused⟩ | ⟨b, stored, haddr, hfree, -⟩
    · simp [perform, hrefused] at hok
    · exact ⟨b, [], haddr, .create hfree⟩
  | @expose a existing object hendpoint hread hsame =>
    rcases (hcopies a existing hread).of_accepted hsame (by decide) (.inl rfl) hok with
      ⟨haddr, hstored⟩
    exact ⟨a, _, haddr, .expose (hendpoint.mono hseen) hstored hsame⟩
  | @progress a kind existing object hkind ha hread hsame =>
    rcases (hcopies a existing hread).of_accepted hsame (by decide) (.inr rfl) hok with
      ⟨haddr, hstored⟩
    exact ⟨a, _, haddr, .progress hkind ha hstored hsame⟩
  | @label a existing object ha hread hsame =>
    rcases (hcopies a existing hread).of_accepted hsame (by decide) (.inl rfl) hok with
      ⟨haddr, hstored⟩
    exact ⟨a, _, haddr, .label ha hstored hsame⟩
  | mark howner hmarker => exact ⟨_, _, rfl, .mark howner hmarker⟩

/-- What was stored there before keeps everything but the parts that are set, and its version. -/
theorem OwnWrite.keeps (hwrite : OwnWrite seen (fun b o => c.find? b = o) a call parts)
    (haddr : call.addressed = .ok a) (hok : (c.perform call).1 = .ok v) {stored : Value}
    (hstored : c.find? a = some stored) : ReadsSameBut (versionPart :: parts) stored v := by
  -- a corrected endpoint and a labelled provisioner are both sent whole
  have hupdate : ∀ object, call = .update object → SameBut parts stored object →
      ReadsSameBut (versionPart :: parts) stored v := by
    rintro object rfl hsame
    rcases update_cases c object with ⟨f, hrefused⟩ |
      ⟨b, current, status, base, replaced, hb, hcurrent, hstatus, hbase, hreplaced, hdone⟩
    · simp [perform, hrefused] at hok
    · obtain rfl : a = b := Except.ok.inj (haddr.symm.trans hb)
      obtain rfl : stored = current := Option.some.inj (hstored.symm.trans (of_current hcurrent).1)
      obtain rfl : replaced = v := by simpa [perform, hdone] using hok
      exact reads_update hsame hstatus hbase hreplaced
  cases hwrite with
  | create hfree => simp [hfree] at hstored
  | @expose _ existing object _ hknown hsame =>
    obtain rfl : existing = stored := Option.some.inj (hknown.symm.trans hstored)
    exact hupdate object rfl hsame
  | @label _ existing object _ hknown hsame =>
    obtain rfl : existing = stored := Option.some.inj (hknown.symm.trans hstored)
    exact hupdate object rfl hsame
  | @progress _ _ existing object _ _ hknown hsame =>
    obtain rfl : existing = stored := Option.some.inj (hknown.symm.trans hstored)
    rcases updateStatus_cases c object with ⟨f, hrefused⟩ |
      ⟨b, current, status, base, replaced, hb, hcurrent, hstatus, hbase, hreplaced, hdone⟩
    · simp [perform, hrefused] at hok
    · obtain rfl : a = b := Except.ok.inj (haddr.symm.trans hb)
      obtain rfl : existing = current := Option.some.inj (hknown.symm.trans (of_current hcurrent).1)
      obtain rfl : replaced = v := by simpa [perform, hdone] using hok
      exact reads_updateStatus hsame hstatus hbase hreplaced
  | @mark body kind id marker _ _ =>
    rcases annotate_cases c ⟨kind, id.ns, id.name⟩ (.object [(childChangedKey, .text marker)]) with
      ⟨f, hrefused⟩ | ⟨changes, before, marked, replaced, hchanges, hbefore, -, hsame, hreplaced, hdone⟩
    · simp [perform, hrefused] at hok
    · obtain rfl := Except.ok.inj hchanges
      obtain rfl : stored = before := Option.some.inj (hstored.symm.trans hbefore)
      obtain rfl : replaced = v := by simpa [perform, hdone] using hok
      have hmarked : SameBut markParts stored marked := hsame (by simp)
      exact ((hmarked.mono fun _ hp => List.mem_cons_of_mem _ hp).trans
        ((sameBut_withVersion hreplaced).mono (by simp))).reads

/-- No write of the operator is to a Secret that is stored. -/
theorem OwnWrite.kind_ne_secret (hwrite : OwnWrite seen (fun b o => c.find? b = o) a call parts)
    {stored : Value} (hstored : c.find? a = some stored) : a.kind ≠ .text Kind.secret := by
  -- what is created is not stored yet, and the other writes are to kinds that are no Secrets
  cases hwrite with
  | create hfree => simp [hfree] at hstored
  | expose hendpoint _ _ =>
    rw [hendpoint.kind]
    decide
  | @progress _ kind _ _ hkind ha _ _ =>
    rw [ha]
    intro heq
    obtain rfl : kind = Kind.secret := by simpa using heq
    exact absurd hkind (by decide)
  | label ha _ _ =>
    rw [ha]
    decide
  | mark howner _ =>
    rintro rfl
    exact absurd (mem_of_owningResource howner) (by decide)

end OwnWrites

end Reconciler
