import Reconciler.Fault
import Reconciler.Text.Digits

/-! # The environment of the process

What is read from environment variables when the service starts: the level of the log, where traces go,
and the numbers of its server and its workers.
-/

namespace Reconciler

/-- Environment variables with their values. -/
abbrev Environment := List (String × String)

namespace Environment

/-- A variable, or a default when it is not set. -/
def getOr (env : Environment) (name default : String) : String :=
  (env.lookup name).getD default

/-- A variable that holds a whole number. -/
def number (env : Environment) (name default : String) : Except Fault Int :=
  let text := env.getOr name default
  (Digits.integer text).mapError fun refusal => .badValue (refusal.message text)

end Environment

/-! ## Logging -/

namespace LogSetup

/-- A letter in upper case. The long s and the dotless i are small letters of S and I. -/
def upper (c : Char) : Char :=
  if c.toNat = 0x17F then 'S' else if c.toNat = 0x131 then 'I' else c.toUpper

/-- What the names stand for that the log knows: levels by their rank, and the basic form of a line. -/
def named : List (String × Value) := [
  ("CRITICAL", .integer 50), ("FATAL", .integer 50), ("ERROR", .integer 40), ("WARNING", .integer 30),
  ("WARN", .integer 30), ("INFO", .integer 20), ("DEBUG", .integer 10), ("NOTSET", .integer 0),
  ("BASIC_FORMAT", .text "%(levelname)s:%(name)s:%(message)s")]

/-- What a name stands for, in any letter case; the rank of information when nothing has that name. -/
def level (name : String) : Value :=
  (named.lookup (String.ofList (name.toList.map upper))).getD (.integer 20)

/-- The level the log is set up with: the one given, or else that of the environment. -/
def chosenLevel (env : Environment) (given : Value) : Except Fault Value :=
  match given with
  | .text name => .ok (level (if name = "" then env.getOr "LOG_LEVEL" "INFO" else name))
  | other => if other.truthy then .error .noAttribute else .ok (level (env.getOr "LOG_LEVEL" "INFO"))

/-- The form of a log line: the message alone. -/
def format : String := "%(message)s"

/-- The loggers that are only heard from warnings on. -/
def quiet : List (String × Nat) := [("kubernetes.client.rest", 30), ("urllib3", 30)]

end LogSetup

/-! ## Tracing -/

/-- Where spans are sent, and under which name. -/
structure TracingTarget where
  endpoint : String
  service : Value
  version : String
deriving DecidableEq, Repr

namespace TracingTarget

/-- The service of spans that are given no name. -/
def namelessService : String := "unknown_service"

/-- Where spans are sent, or nowhere when tracing is switched off. A service always has a name. -/
def ofEnvironment (env : Environment) (serviceName : Value) : Option TracingTarget :=
  if (env.getOr "OTEL_TRACES_ENABLED" "true").toLower = "false" then none
  else
    let service := ((env.lookup "OTEL_SERVICE_NAME").map Value.text).getD serviceName
    some
      { endpoint := env.getOr "OTEL_EXPORTER_OTLP_ENDPOINT" "http://localhost:4317"
        service := service.orElse (.text namelessService)
        version := env.getOr "OTEL_SERVICE_VERSION" "unknown" }

/-- What is logged when tracing cannot be set up. The service goes on without it. -/
def complaint (error : String) : String :=
  s!"Failed to initialize tracing: {error}"

end TracingTarget

/-! ## Start -/

/-- What a start came to: how many workers run, on which port the server listens, and what stopped the
start if something did. -/
structure Startup where
  workers : Option Int
  port : Option Int
  fault : Option Fault
deriving DecidableEq, Repr

namespace Startup

/-- How many workers run: at least one. -/
def workersOf (env : Environment) : Except Fault Int := do
  let workers ← env.number "MAX_WORKERS" "4"
  if workers < 1 then throw (.badValue "Can\x27t set thread pool limit lower than 1.")
  return workers

/-- Starts the service. The workers are set up before the server. -/
def run (env : Environment) : Startup :=
  match workersOf env with
  | .error f => ⟨none, none, some f⟩
  | .ok workers =>
    match env.number "METRICS_PORT" "8080" with
    | .error f => ⟨some workers, none, some f⟩
    | .ok port => ⟨some workers, some port, none⟩

def ready (s : Startup) : Bool := s.fault.isNone

/-- The lowest level of framework records that are posted as events. -/
def postingRank : Nat := 20

/-- The limit for requests to the cluster, in seconds. -/
def requestTimeout : Rat := 30

end Startup

/-! ## Credentials for the cluster -/

/-- The ways to find credentials, in the order they are tried. -/
inductive CredentialLoader where
  | incluster | kubeconfig
deriving DecidableEq, Repr

namespace CredentialLoader

def name : CredentialLoader → String
  | incluster => "incluster"
  | kubeconfig => "kubeconfig"

/-- The fault of a way that does not work. -/
def fault (l : CredentialLoader) : Fault :=
  .plain .config s!"no {l.name}"

/-- The ways tried, and the fault of the last if none works. -/
def load (works : CredentialLoader → Bool) : List CredentialLoader × Except Fault Unit :=
  if works incluster then ([incluster], .ok ())
  else if works kubeconfig then ([incluster, kubeconfig], .ok ())
  else ([incluster, kubeconfig], .error kubeconfig.fault)

end CredentialLoader

end Reconciler
