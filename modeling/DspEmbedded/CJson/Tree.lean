import DspEmbedded.Lib.CString

/-!
# cJSON trees

The values that the vendored cJSON builds: a type tag with its payload, children
in document order, object members with their keys. Keys and string values are
`char *` and every reader stops at their first NUL, so they are `CStr`. The
`double` of a number is read by no caller; the node keeps the literal instead.
-/
namespace DspEmbedded.CJson

open Lib.CString

inductive Json where
  | null
  | bool (value : Bool)
  | number (literal : List UInt8)
  | string (valuestring : CStr)
  | array (child : List Json)
  | object (child : List (CStr × Json))
  deriving Inhabited

namespace Json

/-- `cJSON_IsString(item)` together with `item->valuestring`. -/
def valuestring? : Json → Option CStr
  | .string s => some s
  | _ => none

/-- `cJSON_IsObject`. -/
def isObject : Json → Bool
  | .object _ => true
  | _ => false

end Json

/-- `cJSON_GetObjectItemCaseSensitive`: the first member whose key is `name`.
The children of an array have no key, and end the search at once. -/
def getObjectItemCaseSensitive (object : Json) (name : CStr) : Option Json :=
  match object with
  | .object child => (child.find? fun m => decide (m.1 = name)).map (·.2)
  | _ => none

/-- `cJSON_DeleteItemFromObjectCaseSensitive`: detaches the first member of that
name, if there is one. -/
def deleteItemFromObjectCaseSensitive (object : Json) (name : CStr) : Json :=
  match object with
  | .object child => .object (child.eraseP fun m => decide (m.1 = name))
  | other => other

/-- `cJSON_AddItemToObject` on an object, with its key copied: the member becomes
the last one. Every caller passes an object. -/
def addItemToObject (object : Json) (key : CStr) (item : Json) : Json :=
  match object with
  | .object child => .object (child ++ [(key, item)])
  | other => other

/-- `cJSON_AddItemToArray` on an array. -/
def addItemToArray (array : Json) (item : Json) : Json :=
  match array with
  | .array child => .array (child ++ [item])
  | other => other

end DspEmbedded.CJson
