import DocRefs.Digest.Engine
import DocRefs.Index.Basic
import DocRefs.OrderedMap
import DocRefs.Text.Inspect

/-!
# Inspection

What indexes, registries, engines, digests and maps look like on one line.
-/
namespace DocRefs

def Index.inspect (ix : Index) : String :=
  Text.record "DocumentIndex" [
    ("location", Text.optional (ix.location.map Text.quoted)),
    ("locations", toString ix.places.size),
    ("references", toString ix.sites.length),
    ("mapped", toString ix.mapped.size),
    ("circular", toString ix.findings.length)]

def Registry.inspect (r : Registry) : String :=
  Text.record "Rolodex" [("documents", Text.listed (r.locations.map Text.quoted))]

def Engine.inspect (e : Engine) : String :=
  Text.record "HashEngine" [
    ("seeded", if e.seed.isSome then "true" else "false"),
    ("cached", toString e.cache.length)]

def Digest.inspect (d : Digest) : String := "HashDigest(" ++ d.hex ++ ")"

/-- The entries of a map with texts as keys. -/
def OrderedMap.inspect {ν : Type} (describe : ν → String) (m : OrderedMap String ν) : String :=
  Text.mapped (m.toList.map fun (key, value) => (Text.quoted key, describe value))

end DocRefs
