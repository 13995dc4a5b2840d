import BenchSweep.Catalog.Decode
import BenchSweep.Catalog.Settings

/-! # Catalog Texts

    Reading a catalog from its text: the text must be TOML, the TOML must have
    the shape of a catalog, and the catalog must pass its checks. -/

namespace BenchSweep

/-- Why a text holds no catalog. -/
inductive CatalogTextError where
  /-- It is not TOML, or has not the shape of a catalog. -/
  | malformed
  | invalid (cause : CatalogError)
deriving DecidableEq

/-- Reads a catalog from its text. -/
def Catalog.ofText (text : String) : Except CatalogTextError Catalog :=
  match (Toml.read text).bind Catalog.ofTable? with
  | none => .error .malformed
  | some c =>
    match c.validate with
    | .ok () => .ok c
    | .error cause => .error (.invalid cause)

end BenchSweep
