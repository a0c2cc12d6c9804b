import Reconciler.Proofs.Independence.Handlers
import Reconciler.Proofs.Independence.Footprints
import Reconciler.Proofs.Provisioning.Owners
import Reconciler.Proofs.Secrecy.Passes

/-! # Passes over independent resources

The passes over different resources come in any order. When neither of two writes where the other calls, the
order does not matter: each comes to the same directive and leaves the same events and log lines behind, and
the same is stored in the end, but for the numbers of the versions.

Main definitions and statements:

* `Visit`: a pass of a handler over a resource, with a source of randomness of its own;
* `Visit.Independent`: neither writes where the other calls;
* `Visit.Apart`: nor may it, by the addresses of their resources;
* `Visit.Interchangeable`: what is the same in both orders;
* `independent_passes_commute`: independent visits are interchangeable, and visits that are apart are
  independent.
-/

namespace Reconciler

open Cluster
open Provisioning (Consistent)

/-! ## Visits -/

/-- A pass of a handler over a resource, with a source of randomness of its own. -/
structure Visit (settings : Settings) where
  handler : Handler
  handled : handler ∈ handlers settings
  id : Identity
  source : Source
  lawful : source.Lawful

namespace Visit

variable {settings : Settings}

/-- The course that a visit takes in a cluster. -/
def course (visit : Visit settings) (circumstances : Circumstances) (c : Cluster) :
    Course Scene Directive :=
  (visit.handler.reconcile settings visit.id).course (circumstances.facing visit.source) ⟨c, 0⟩

def after (visit : Visit settings) (circumstances : Circumstances) (c : Cluster) : Cluster :=
  (visit.course circumstances c).state.cluster

def writable (visit : Visit settings) : List Address :=
  Reconciler.writable visit.handler.kind visit.id

def reachable (visit : Visit settings) (c : Cluster) : List Address :=
  Reconciler.reachable c visit.handler.kind visit.id

/-- The name of the resource is a text. -/
def Named (visit : Visit settings) : Prop :=
  ∃ name, visit.id.name = .text name

/-- Neither of two visits writes where the other calls. -/
structure Independent (circumstances : Circumstances) (first second : Visit settings) (c : Cluster) :
    Prop where
  forward : Clear (first.course circumstances c).calls (second.course circumstances c).calls
  backward : Clear (second.course circumstances c).calls (first.course circumstances c).calls

/-- Neither of two visits may write where the other may call. -/
structure Apart (first second : Visit settings) (c : Cluster) : Prop where
  forward : ∀ a ∈ first.writable, a ∉ second.reachable c
  backward : ∀ a ∈ second.writable, a ∉ first.reachable c

/-- Whichever of two visits comes first, each takes the same course as without the other, and the same is
stored after both. -/
structure Interchangeable (circumstances : Circumstances) (first second : Visit settings) (c : Cluster) :
    Prop where
  same_first : SameCourse (first.course circumstances c)
    (first.course circumstances (second.after circumstances c))
  same_second : SameCourse (second.course circumstances c)
    (second.course circumstances (first.after circumstances c))
  stored : SameButNumbers c (second.after circumstances (first.after circumstances c))
    (first.after circumstances (second.after circumstances c))

section

variable {circumstances : Circumstances} {first second : Visit settings} {c : Cluster}

/-- A visit looks before it writes. -/
theorem looksFirst (visit : Visit settings) :
    LooksFirst (fun _ _ => True) .looking (visit.handler.reconcile settings visit.id) :=
  Handler.reconcile_looksFirst settings (handlers_look visit.handled visit.id)

/-- Visits that are apart are independent. -/
theorem Apart.independent (h : Apart first second c) (hfree : circumstances.FaultFree)
    (hc : Consistent c) (hfirst : first.Named) (hsecond : second.Named) :
    Independent circumstances first second c := by
  have hcalls := calls_within first.handled hfirst hfree first.lawful hc
  have hcalls' := calls_within second.handled hsecond hfree second.lawful hc
  exact ⟨clear_of_within hcalls hcalls' h.forward, clear_of_within hcalls' hcalls h.backward⟩

/-- Independent visits are interchangeable. -/
theorem Independent.interchangeable (h : Independent circumstances first second c)
    (hfree : circumstances.FaultFree) : Interchangeable circumstances first second c := by
  obtain ⟨hfirst, hsecond, hstored⟩ :=
    first.looksFirst.commute second.looksFirst hfree c h.forward h.backward
  exact ⟨hfirst, hsecond, hstored⟩

end

end Visit

/-- Passes over independent resources commute, whatever is stored. Neither writes where the other calls if,
with every object stored under its own address, what either may write, by the resource, its children and its
job, is not where the other may call. -/
theorem independent_passes_commute {settings : Settings} {circumstances : Circumstances}
    (hfree : circumstances.FaultFree) (first second : Visit settings) (c : Cluster) :
    (Visit.Independent circumstances first second c →
      Visit.Interchangeable circumstances first second c) ∧
    (Consistent c → first.Named → second.Named → Visit.Apart first second c →
      Visit.Independent circumstances first second c) :=
  ⟨fun h => h.interchangeable hfree,
    fun hc hfirst hsecond happart => happart.independent hfree hc hfirst hsecond⟩

/-! ### A database and a request -/

/-- A cluster with a database, and with a request and its provisioner. -/
def sharedCluster : Cluster :=
  ((Provisioning.sampleCluster Kind.resource).put Convergence.sampleDatabase).2

def databaseVisit : Visit {} where
  handler := Family.database.handler {}
  handled := by simp [handlers, Family.handler]
  id := ⟨.text "default", .text "pg"⟩
  source := sourceShuffling id
  lawful := lawful_sourceShuffling fun chars => .refl chars

def requestVisit : Visit {} where
  handler := Provisioning.handler {} Kind.resource
  handled := by simp [handlers]
  id := Provisioning.sampleId
  source := sourceShuffling List.reverse
  lawful := lawful_sourceShuffling List.reverse_perm

/-- One visit claims storage for the database, the other starts the job of the request. The claim has another
number when it is made later, and nothing else differs. -/
theorem database_and_request_commute :
    calm.FaultFree ∧ Consistent sharedCluster ∧ databaseVisit.Named ∧ requestVisit.Named ∧
      Visit.Apart databaseVisit requestVisit sharedCluster ∧
      Visit.Interchangeable calm databaseVisit requestVisit sharedCluster ∧
      (requestVisit.after calm (databaseVisit.after calm sharedCluster)).journal.map (·.operation) =
        ["create", "update_status", "create"] ∧
      (databaseVisit.after calm (requestVisit.after calm sharedCluster)).journal.map (·.operation) =
        ["update_status", "create", "create"] ∧
      (requestVisit.after calm (databaseVisit.after calm sharedCluster)).find?
          ⟨.text Kind.claim, .text "default", .text "pg"⟩ ≠
        (databaseVisit.after calm (requestVisit.after calm sharedCluster)).find?
          ⟨.text Kind.claim, .text "default", .text "pg"⟩ := by
  have hfree : calm.FaultFree := fun _ _ => rfl
  have hc : Consistent sharedCluster := Provisioning.consistent_of_objects (by decide +kernel)
  have hdatabase : databaseVisit.Named := ⟨"pg", rfl⟩
  have hrequest : requestVisit.Named := ⟨"db", rfl⟩
  have happart : Visit.Apart databaseVisit requestVisit sharedCluster :=
    ⟨by decide +kernel, by decide +kernel⟩
  obtain ⟨hinterchangeable, hindependent⟩ :=
    independent_passes_commute hfree databaseVisit requestVisit sharedCluster
  exact ⟨hfree, hc, hdatabase, hrequest, happart,
    hinterchangeable (hindependent hc hdatabase hrequest happart), by decide +kernel, by decide +kernel,
    by decide +kernel⟩

end Reconciler
