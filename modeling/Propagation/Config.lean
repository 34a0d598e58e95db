import Propagation.Json.Codec
import Propagation.Store.Scope
import Propagation.Text.Basic

/-!
# Configuration

The configuration says which store to open and how often to retry. Whatever is not said takes
its default. The number of attempts can also be set from the environment; however it is set, it
is at least one.

## Main definitions

* `Backend`, `Config`: the configuration.
* `Config.check`: refuse a configuration that allows no attempt.
* `Config.read`, `Config.ofFile`: the configuration that a text denotes.
* `Config.override`: a configuration with the settings of the environment.
* `Config.ofEnvironment`: the configuration that the environment alone denotes.
-/

namespace Propagation

open Json (encode decode?)

/-- A kind of store. -/
inductive Backend
  /-- A store in memory. -/
  | memory
  deriving DecidableEq

/-- Which store to open and how often to retry. -/
structure Config where
  retry : RetryPolicy := {}
  backend : Backend := .memory
  deriving DecidableEq

instance : Json.Codec RetryPolicy where
  encode p := .obj [("max_attempts", .int p.maxAttempts.toNat)]
  decode? j :=
    match Json.someFields? ["max_attempts"] j with
    | some [maxAttempts] => do
      let n ← Json.defaulted? (fun j => (Json.nat? UInt32.size j).map UInt32.ofNat)
        ({} : RetryPolicy).maxAttempts maxAttempts
      return { maxAttempts := n }
    | _ => none

/-- How deep a text may nest where everything in it is looked at. -/
def Backend.maxDepth : Nat := 127

/-- The kind of store that a value inside `outer` others denotes. What else the value says is
not used, but it has to be legible and must not nest too deep. -/
def Backend.decode? (outer : Nat) (j : Json) : Option Backend :=
  match j with
  | .arr [.str "memory"] => some .memory
  | .obj members =>
    match Json.member? members "kind" with
    | some (some (.str "memory")) =>
      if j.isLegible && outer + j.depth ≤ maxDepth then some .memory else none
    | _ => none
  | _ => none

instance : Json.Codec Backend where
  encode
    | .memory => .obj [("kind", .str "memory")]
  decode? := Backend.decode? 0

instance : Json.Codec Config where
  encode c := .obj [("retry", encode c.retry), ("backend", encode c.backend)]
  decode? j :=
    match Json.someFields? ["retry", "backend"] j with
    | some [retry, backend] => do
      return { retry := ← Json.defaulted? decode? {} retry,
               backend := ← Json.defaulted? (Backend.decode? 1) .memory backend }
    | _ => none

namespace Config

/-- The setting that gives the number of attempts. -/
def attemptsVariable : String := "WALLACE_MAX_ATTEMPTS"

/-- The configuration `c`, if it allows an attempt. -/
def check (c : Config) : Except Error Config :=
  if c.retry.maxAttempts = 0 then .error .noAttempts else .ok c

/-- The configuration that the text `s` denotes. -/
def read (s : String) : Except Error Config :=
  let found : Option Config := Json.read? s >>= decode?
  match found with
  | some c => c.check
  | none => .error .json

/-- The configuration that the contents of a file denote, if there is a file. -/
def ofFile : Option String → Except Error Config
  | some s => read s
  | none => .error .file

/-- The number of attempts that the setting `raw` denotes. Blanks around it do not count. -/
def readAttempts (raw : String) : Except Error UInt32 :=
  match Count.read UInt32.size (Text.trim raw.toList) with
  | .ok n => .ok (.ofNat n)
  | .error fault => .error (.badCount attemptsVariable raw fault)

/-- The configuration `c` with the settings that `environment` has. -/
def override (environment : String → Option String) (c : Config) : Except Error Config :=
  match environment attemptsVariable with
  | some raw => do
    let maxAttempts ← readAttempts raw
    check { c with retry := { maxAttempts } }
  | none => c.check

/-- The configuration that `environment` denotes; what is not set there takes its default. -/
def ofEnvironment (environment : String → Option String) : Except Error Config :=
  override environment {}

end Config

end Propagation
