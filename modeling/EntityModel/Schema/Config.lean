import EntityModel.Schema.Decoding
import EntityModel.Toml.Reader

/-!
# Configurations

A configuration is a TOML document that lists entities under `entity`. From it a registry is built
that holds exactly these.

* `Config.parse`: the registrations of a document.
* `Config.load`: the same for the content of a file.
-/

namespace EntityModel

/-- The entities of a configuration. -/
structure Config where
  registrations : List Registration

namespace Config

/-- Why a configuration cannot be read. -/
inductive LoadError where
  /-- There is no file, or it is no text. -/
  | unreadable
  /-- The document is not TOML, or not of the expected form. -/
  | malformed
  | badType (error : ValueType.ParseError)
deriving DecidableEq, Repr

def LoadError.ofDecode : Schema.DecodeError → LoadError
  | .malformed => .malformed
  | .badType error => .badType error

/-- Reads the entities of a document; other entries are passed over. -/
def decode (entries : List (String × Json)) : Except Schema.DecodeError Config :=
  match Assoc.get? entries "entity" with
  | none => .ok ⟨[]⟩
  | some (.array items) => return ⟨← items.mapM (Schema.decodeEntity .toml)⟩
  | some _ => .error .malformed

/-- Reads a document. -/
def parse (document : String) : Except LoadError Config :=
  match Toml.parse? document with
  | some entries => (decode entries).mapError .ofDecode
  | none => .error .malformed

/-- Reads the content of a file, if there is one. -/
def load (content : Option ByteArray) : Except LoadError Config :=
  match content.bind String.fromUTF8? with
  | some document => parse document
  | none => .error .unreadable

/-- The registry of the entities. -/
def registry (config : Config) : Except SchemaError Registry :=
  Registry.build config.registrations

/-- The tree of a configuration. -/
def tree (config : Config) : Json :=
  .object [("entity", .array (config.registrations.map Registration.tree))]

end Config

end EntityModel
