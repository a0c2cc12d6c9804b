import Reconciler.Handler.Reconcile
import Reconciler.Manifest.Endpoint

/-! # Convergence by tiers

The children of a resource come in tiers, each of which may depend on those before it. A pass goes
through the tiers in order and stops at the first one that is missing or has drifted from what is
wanted: a missing child is created, a drifted one is updated. So a pass makes at most one write, and a
child is only made when everything before it is there.
-/

namespace Reconciler

/-- Compares an existing child with the wanted one and answers with the spec fields to set. -/
abbrev Drift := Value → Value → Except Fault Fields

/-- One step of the chain. A tier without drift is never updated. -/
structure Tier where
  name : String
  kind : String
  childName : Value
  /-- The wanted child. -/
  build : Pass Value
  drift : Option Drift := none

namespace Convergence

/-- Creates the child of a tier. Losing a race for its name is no failure. -/
def create (parentKind : String) (parent : Value) (tier : Tier) : Pass Directive := do
  let metadata ← parent.fieldOr "metadata" (.object [])
  SafePass.trace (.annotateSpan "convergence.tier" (.text tier.name))
  let manifest ← tier.build
  Pass.log parentKind .info metadata
    { message := s!"Creating {tier.kind} {tier.childName.shown}"
      event := .text "create"
      reason := .text "ChildCreating"
      extra := [("tier", .text tier.name)] }
  match ← (Pass.call (.create manifest)).outcome with
  | .ok _ =>
    SafePass.count (.childOperations tier.kind "create" "success")
    SafePass.post (.childCreated parent tier.kind tier.childName.shown)
    return .requeueNow
  | .error f =>
    -- somebody else made it in between, and the next pass finds it
    if f.belongsTo .alreadyExists then
      SafePass.count (.childOperations tier.kind "create" "exists")
      return .requeueNow
    else
      SafePass.count (.childOperations tier.kind "create" "failed")
      throw f

/-- Sets fields in the spec of an object. -/
def applyChanges (existing : Value) (changes : Fields) : Except Fault Value := do
  let existing ← existing.withDefault "spec" (.object [])
  let spec ← (← existing.require "spec").overlay changes
  existing.setField "spec" spec

/-- Updates the child of a tier. A conflict is no failure; after an update the pass pauses. -/
def patch (settings : Settings) (parentKind : String) (parent : Value) (tier : Tier)
    (existing : Value) (changes : Fields) : Pass Directive := do
  SafePass.trace (.annotateSpan "convergence.tier" (.text tier.name))
  let metadata ← parent.fieldOr "metadata" (.object [])
  -- counted by every pass that sees it, also when the update fails
  SafePass.count (.drifts parentKind tier.kind)
  let names : Value := .list (changes.sorted.names.map .text)
  Pass.log parentKind .info metadata
    { message :=
        s!"{tier.kind} {tier.childName.shown} drifted from spec, updating {names.quoted}"
      event := .text "update"
      reason := .text "DriftDetected"
      extra := [("tier", .text tier.name), ("changes", .object changes)] }
  let changed ← applyChanges existing changes
  match ← (Pass.call (.update changed)).outcome with
  | .ok _ =>
    SafePass.count (.childOperations tier.kind "update" "success")
    SafePass.post (.childUpdated parent tier.kind tier.childName.shown)
    Directive.after settings.cooldown
  | .error f =>
    if f.belongsTo .conflict then
      SafePass.count (.childOperations tier.kind "update" "conflict")
      return .requeueNow
    else
      SafePass.count (.childOperations tier.kind "update" "failed")
      throw f

/-- Goes through tiers up to the first that is missing or has drifted. -/
def walk (settings : Settings) (kind : String) (id : Identity) (parent : Value) :
    List Tier → Pass Directive
  | [] => do
    let metadata ← parent.fieldOr "metadata" (.object [])
    Pass.log kind .info metadata
      (.info s!"All children of {kind} {id.shown} are in sync" "InSync")
    return .done
  | tier :: rest => do
    match ← (Pass.get tier.kind id.ns tier.childName).outcome with
    | .error f => if f.belongsTo .notFound then create kind parent tier else throw f
    | .ok existing =>
      -- a child that nothing of is compared is as wanted once it exists
      match tier.drift with
      | none => walk settings kind id parent rest
      | some drift => do
        let changes ← drift existing (← tier.build)
        if changes.isEmpty then walk settings kind id parent rest
        else patch settings kind parent tier existing changes

/-- One pass over a resource whose tiers are derived from it. -/
def converge (settings : Settings) (kind : String) (tiers : Value → Except Fault (List Tier))
    (id : Identity) : Pass Directive := do
  let parent ← Pass.get kind id.ns id.name
  -- a parent that is no object fails before any tier is looked at
  let _ ← parent.fieldOr "metadata" (.object [])
  walk settings kind id parent (← tiers parent)

/-- The handler of a kind whose resources consist of tiers. -/
def handler (settings : Settings) (kind : String) (tiers : Value → Except Fault (List Tier)) :
    Handler :=
  ⟨kind, converge settings kind tiers⟩

end Convergence

end Reconciler
