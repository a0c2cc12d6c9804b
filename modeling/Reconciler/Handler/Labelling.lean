import Reconciler.Handler.Reconcile
import Reconciler.Manifest.Metadata
import Reconciler.Resource.Descriptor

/-! # Labelling provisioners

A provisioner gets discovery labels from its type descriptor, once. A provisioner with a `type` label is
never written again, whatever becomes of its descriptor.
-/

namespace Reconciler.Labelling

def withLabels (provisioner metadata labels : Value) (d : Descriptor) : Except Fault Value := do
  let kept ← labels.spread
  let metadata ← metadata.setField "labels" (.object (Fields.merge kept d.labels))
  provisioner.setField "metadata" metadata

def converge (id : Identity) : Pass Directive := do
  let kind := Kind.provisioner
  let stored ← Pass.get kind id.ns id.name
  let provisioner ← stored.withDefault "metadata" (.object [])
  let metadata ← provisioner.require "metadata"
  let labels := (← Pass.lift (metadata.fieldOrNull "labels")).orElse (.object [])
  if ← Pass.lift (labels.holds "type") then
    return .done
  else
    let descriptor ← (← Manifest.specOf provisioner).fieldOrNull "typeKindSpecific"
    match Descriptor.parse descriptor with
    | .error (.build complaint) =>
      let fault := Fault.build complaint
      Pass.log kind .warning metadata
        (.warning s!"Cannot label provisioner: {fault.sanitized}" "DescriptorInvalid"
          [("descriptor", descriptor)])
      SafePass.post (.descriptorInvalid provisioner complaint)
      return .failed (some fault)
    | .error f => throw (f : Failure)
    | .ok d =>
      let labeled ← withLabels provisioner metadata labels d
      let _ ← Pass.call (.update labeled)
      Pass.log kind .info metadata
        (.info "Provisioner labels updated" "Labeled" [("labels", .object d.labels)])
      SafePass.post (.labeled labeled descriptor.shown)
      return .done

def handler : Handler :=
  ⟨Kind.provisioner, converge⟩

end Reconciler.Labelling
