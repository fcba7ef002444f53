import RecordQuery.Value.Basic

/-!
The answer to an authentication, as it is declared.

* An answer has a record of a type that the caller chooses, a token, and what a provider adds, which
  may be missing (`AuthAnswer.declaration`). Fields besides these are kept, so that nothing a newer
  server sends is lost.
* How a payload is read is not said here. That is the rule of the library for which the answer is
  declared, and reading one takes the library as an argument (`AuthAnswer.read`).
-/

namespace RecordQuery

/-- What a declared field holds. -/
inductive FieldType (ρ : Type) where
  /-- A record of a type that the caller chooses. -/
  | record (type : ρ)
  | text
  /-- A mapping with texts as its keys, or null. -/
  | mappingOrNull

/-- A declared field. One that has a default may be missing. -/
structure FieldDeclaration (ρ : Type) where
  name : Text
  type : FieldType ρ
  default : Option Value := none

/-- A declared type of payloads. -/
structure Declaration (ρ : Type) where
  /-- The declared fields in their order. -/
  fields : List (FieldDeclaration ρ)
  /-- Fields that are not declared are kept. -/
  keepsOthers : Bool

namespace AuthAnswer

/-- The declaration of an answer with a record of the given type. -/
def declaration {ρ : Type} (type : ρ) : Declaration ρ :=
  { fields :=
      [{ name := "record", type := .record type }, { name := "token", type := .text },
        { name := "meta", type := .mappingOrNull, default := some .null }]
    keepsOthers := true }

/-- Reads an answer from a payload, as the library reads payloads of a declared type. -/
def read {ρ α : Type} (library : Declaration ρ → Value → α) (type : ρ) (payload : Value) : α :=
  library (declaration type) payload

end AuthAnswer

end RecordQuery
