/-
# Annotations that are not taken over

The annotation in which the client keeps the last applied form of a resource describes the old resource,
so a converted one must not have it. Further annotations can be named.

Key definitions: `isSkipped`, `keepAnnotations`, `keepMetadata`.
-/
import TraefikUpgrade.Resource.Metadata

namespace TraefikUpgrade.Conversion

open Resource Text

/-- The annotation with the last applied form of a resource. -/
def lastApplied : String := "kubectl.kubernetes.io/last-applied-configuration"

/-- Whether an annotation is not taken over, where those in `extra` are not. -/
def isSkipped (extra : List String) (key : String) : Bool := key == lastApplied || extra.contains key

/-- The annotations that are taken over. -/
def keepAnnotations (extra : List String) (annotations : Dictionary String) : Dictionary String :=
  annotations.filterKeys fun key => !isSkipped extra key

/-- Metadata with the annotations that are taken over. -/
def keepMetadata (extra : List String) (m : Metadata) : Metadata :=
  { m with annotations := keepAnnotations extra m.annotations }

end TraefikUpgrade.Conversion
