import ConnectorControl.Objects.Kind
import ConnectorControl.Objects.Metadata
import ConnectorControl.Text.Base64

/-!
# Secrets

A Secret holds values by key, as bytes in base 64 or as plain text.  A type given with it has to be
that of a Secret.
-/

namespace ConnectorControl

structure Secret where
  metadata : Metadata
  type : Option String
  immutable : Option Bool
  data : Option (Table String (List UInt8))
  stringData : Option (Table String String)

namespace Secret

/-- bytes in base 64; `null` is no bytes -/
def bytes : Decoder (List UInt8)
  | .null => .ok []
  | .str s =>
    match Base64.decode s with
    | some bs => .ok bs
    | none => .error (.unreadable "the text is not base 64")
  | v => .error (.mismatch "base 64" v)

/-- reads one text only -/
def exactly (text : String) : Decoder Unit
  | .str s => if s = text then .ok () else .error (.invalid text (.str s))
  | v => .error (.mismatch "a string" v)

open Decode in
def decode : Decoder Secret := fun v => do
  let ms ← membersOf "Secret" v
  let _ ← member? ms "apiVersion" (exactly Kind.secret.apiVersion)
  let data ← optional ms "data" (table bytes)
  let immutable ← optional ms "immutable" bool
  let _ ← member? ms "kind" (exactly Kind.secret.name)
  let metadata ← optional ms "metadata" Metadata.decode
  let stringData ← optional ms "stringData" (table string)
  let type ← optional ms "type" string
  return { metadata := metadata.getD default, type, immutable, data, stringData }

/-- whether there is a value under a key, in either form -/
def hasKey (s : Secret) (key : String) : Bool :=
  (s.data.any (·.contains key)) || (s.stringData.any (·.contains key))

end Secret
end ConnectorControl
