import Reconciler.Text.Shown

/-! # Faults

Everything that can go wrong in a pass, a store call or a builder, with the wording it is reported
under. Faults form families: a conflict is a store fault and a store fault is an operator fault, so a
caller that is prepared for a family is prepared for its members.
-/

namespace Reconciler

/-- Classes of faults of other components that carry nothing but a message; `other` holds those that
nothing here tells apart. -/
inductive PlainClass where
  | runtime | os | connection | http | config
  | other (name : String)
deriving DecidableEq, Repr

/-- What went wrong. -/
inductive Fault where
  /-- An operator fault of no particular kind. -/
  | operator (message : String)
  /-- A store call failed, with the status of the answer if there was one. -/
  | store (message : String) (status : Value)
  /-- The object addressed by a store call does not exist. -/
  | notFound (kind ns name : Value)
  /-- A write was made against a stale version. -/
  | conflict (message : String)
  /-- Another writer took the name first. -/
  | alreadyExists (message : String)
  /-- A desired object could not be derived. -/
  | build (message : String)
  /-- An object the resource depends on does not exist yet. -/
  | dependencyMissing (kind ns name : Value)
  /-- The job doing the provisioning reported failure. -/
  | jobFailed (job : Value) (reason : Value)
  /-- A value outside its range. -/
  | badValue (message : String)
  /-- A required field is absent. -/
  | missingField (name : Value)
  /-- A value of the wrong shape for what is done with it. -/
  | wrongShape
  /-- A value that has no fields, or lacks an operation, where one is asked for. -/
  | noAttribute
  /-- A pass that was never defined. -/
  | notImplemented
  /-- A power of two beyond the range of double precision. -/
  | overflow
  /-- A whole number beyond the range of double precision. -/
  | tooLarge
  /-- A rate of zero. -/
  | divisionByZero
  /-- The API server refused a call. The text is what the client makes of the refusal. -/
  | refusal (status reason body : Value) (text : String)
  /-- A fault of another component. -/
  | plain (cls : PlainClass) (message : String)
deriving Repr, DecidableEq, Inhabited

/-- The classes of the operator's own faults, and for each class the one it belongs to. -/
inductive FaultClass where
  | operator | store | notFound | conflict | alreadyExists | build | dependencyMissing | jobFailed
deriving DecidableEq, Repr

namespace FaultClass

/-- The name a class is reported under. -/
def name : FaultClass → String
  | operator => "OperatorError"
  | store => "StoreError"
  | notFound => "NotFoundError"
  | conflict => "ConflictError"
  | alreadyExists => "AlreadyExistsError"
  | build => "BuildError"
  | dependencyMissing => "DependencyMissingError"
  | jobFailed => "DelegatedJobFailedError"

/-- A class followed by the classes it belongs to, nearest first. -/
def ancestry : FaultClass → List FaultClass
  | operator => [operator]
  | store => [store, operator]
  | notFound => [notFound, store, operator]
  | conflict => [conflict, store, operator]
  | alreadyExists => [alreadyExists, conflict, store, operator]
  | build => [build, operator]
  | dependencyMissing => [dependencyMissing, operator]
  | jobFailed => [jobFailed, operator]

end FaultClass

namespace PlainClass

/-- The name a class is reported under. -/
def name : PlainClass → String
  | runtime => "RuntimeError"
  | os => "OSError"
  | connection => "ConnectionError"
  | http => "HTTPError"
  | config => "ConfigException"
  | other name => name

end PlainClass

namespace Fault

/-- The operator's own class of a fault, if it is one of those. -/
def class? : Fault → Option FaultClass
  | operator _ => some .operator
  | store _ _ => some .store
  | notFound _ _ _ => some .notFound
  | conflict _ => some .conflict
  | alreadyExists _ => some .alreadyExists
  | build _ => some .build
  | dependencyMissing _ _ _ => some .dependencyMissing
  | jobFailed _ _ => some .jobFailed
  | _ => none

/-- The classes of the operator's own that a fault belongs to, nearest first. -/
def ancestry (f : Fault) : List FaultClass :=
  match f.class? with
  | some c => c.ancestry
  | none => []

/-- Whether a fault belongs to a class of the operator's own. -/
def belongsTo (f : Fault) (c : FaultClass) : Bool :=
  f.ancestry.contains c

/-- The name a fault is reported under. -/
def className : Fault → String
  | operator _ => FaultClass.operator.name
  | store _ _ => FaultClass.store.name
  | notFound _ _ _ => FaultClass.notFound.name
  | conflict _ => FaultClass.conflict.name
  | alreadyExists _ => FaultClass.alreadyExists.name
  | build _ => FaultClass.build.name
  | dependencyMissing _ _ _ => FaultClass.dependencyMissing.name
  | jobFailed _ _ => FaultClass.jobFailed.name
  | badValue _ => "ValueError"
  | missingField _ => "KeyError"
  | wrongShape => "TypeError"
  | noAttribute => "AttributeError"
  | notImplemented => "NotImplementedError"
  | overflow | tooLarge => "OverflowError"
  | divisionByZero => "ZeroDivisionError"
  | refusal _ _ _ _ => "ApiException"
  | plain cls _ => cls.name

def message : Fault → String
  | operator m | store m _ | conflict m | alreadyExists m | build m | badValue m | plain _ m => m
  | refusal _ _ _ text => text
  | notFound kind ns name => s!"{kind.shown} {ns.shown}/{name.shown} not found"
  | dependencyMissing kind ns name => s!"{kind.shown} {ns.shown}/{name.shown} does not exist"
  | jobFailed job reason =>
    s!"Provisioning job {job.shown} failed"
      ++ (if reason.truthy then s!": {reason.shown}" else "")
  | missingField name => name.quoted
  | wrongShape => "value of the wrong shape"
  | noAttribute => "value without the requested field"
  | notImplemented => ""
  | overflow => "(34, \x27Numerical result out of range\x27)"
  | tooLarge => "int too large to convert to float"
  | divisionByZero => "float division by zero"

/-- Whether the wording of a fault is not part of its contract. -/
def unworded : Fault → Bool
  | wrongShape | noAttribute => true
  | _ => false

/-- The status a store fault carries; `none` for faults that are not of the store. -/
def status? : Fault → Option Value
  | store _ status => some status
  | notFound _ _ _ => some (.integer 404)
  | conflict _ | alreadyExists _ => some (.integer 409)
  | _ => none

end Fault

/-- A fault, and the fault it was made from if it reports another one. -/
structure Failure where
  fault : Fault
  source : Option Fault
deriving Repr, DecidableEq, Inhabited

/-- A fault that reports no other. -/
instance : Coe Fault Failure := ⟨fun f => ⟨f, none⟩⟩

namespace Failure

/-- Whether the fault belongs to a class of the operator's own. -/
def belongsTo (f : Failure) (c : FaultClass) : Bool :=
  f.fault.belongsTo c

/-- The name the failure is reported under. -/
def className (f : Failure) : String := f.fault.className

def message (f : Failure) : String := f.fault.message

end Failure

end Reconciler
