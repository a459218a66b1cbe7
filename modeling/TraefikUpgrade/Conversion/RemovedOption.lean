/-
# Options without a counterpart

Some options of middlewares were removed with version 3. They are dropped; whoever sets one has to find
another way.

Key definitions: `RemovedOption`, `RemovedOption.isConfigured`, `removedOptions`.
-/
import TraefikUpgrade.Resource.V2

namespace TraefikUpgrade.Conversion

open Resource

/-- An option of a middleware that was removed. -/
inductive RemovedOption where
  | sslRedirect
  | sslTemporaryRedirect
  | sslHost
  | sslForceHost
  | featurePolicy
  | forceSlash
  | autoDetect
deriving DecidableEq, Repr

namespace RemovedOption

def all : List RemovedOption :=
  [.sslRedirect, .sslTemporaryRedirect, .sslHost, .sslForceHost, .featurePolicy, .forceSlash,
    .autoDetect]

/-- The block in which the option stands. -/
def block : RemovedOption → String
  | .forceSlash => "stripPrefix"
  | .autoDetect => "contentType"
  | _ => "headers"

def name : RemovedOption → String
  | .sslRedirect => "sslRedirect"
  | .sslTemporaryRedirect => "sslTemporaryRedirect"
  | .sslHost => "sslHost"
  | .sslForceHost => "sslForceHost"
  | .featurePolicy => "featurePolicy"
  | .forceSlash => "forceSlash"
  | .autoDetect => "autoDetect"

def display (o : RemovedOption) : String := o.block ++ "." ++ o.name

/-- Whether a switch is on. -/
def isOn (switch : Option Bool) : Bool := switch.getD false

/-- Whether a text is given and not empty. -/
def isFilled (text : Option String) : Bool := text.any fun s => !s.isEmpty

/-- Whether a middleware sets the option: to true, or to a text that is not empty. -/
def isConfigured (spec : V2.MiddlewareSpec) : RemovedOption → Bool
  | .sslRedirect => spec.headers.any fun h => isOn h.sslRedirect
  | .sslTemporaryRedirect => spec.headers.any fun h => isOn h.sslTemporaryRedirect
  | .sslHost => spec.headers.any fun h => isFilled h.sslHost
  | .sslForceHost => spec.headers.any fun h => isOn h.sslForceHost
  | .featurePolicy => spec.headers.any fun h => isFilled h.featurePolicy
  | .forceSlash => spec.stripPrefix.any fun s => isOn s.forceSlash
  | .autoDetect => spec.contentType.any fun c => isOn c.autoDetect

end RemovedOption

/-- The removed options that a middleware sets. -/
def removedOptions (spec : V2.MiddlewareSpec) : List RemovedOption :=
  RemovedOption.all.filter (·.isConfigured spec)

/-- Whether a middleware sets a removed option. -/
def hasRemovedOptions (spec : V2.MiddlewareSpec) : Bool :=
  RemovedOption.all.any (·.isConfigured spec)

end TraefikUpgrade.Conversion
