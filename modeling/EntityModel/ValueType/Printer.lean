import EntityModel.ValueType.Basic

/-!
# The written form of types

Types are written as they are declared, without blanks: `list<string>`,
`object{id:int64,name:string}`.
-/

namespace EntityModel.ValueType

mutual
/-- The characters of the written form. -/
def text : ValueType → List Char
  | .string => "string".toList
  | .int64 => "int64".toList
  | .float64 => "float64".toList
  | .bool => "bool".toList
  | .list element => "list<".toList ++ text element ++ ['>']
  | .set element => "set<".toList ++ text element ++ ['>']
  | .map element => "map<".toList ++ text element ++ ['>']
  | .object fields => "object".toList ++ '\x7b' :: fieldsText fields ++ ['\x7d']

/-- The fields with commas between them. -/
def fieldsText : List (String × ValueType) → List Char
  | [] => []
  | [(name, type)] => name.toList ++ ':' :: text type
  | (name, type) :: rest => name.toList ++ ':' :: text type ++ ',' :: fieldsText rest
end

/-- The written form. -/
def render (type : ValueType) : String := String.ofList (text type)

instance : ToString ValueType := ⟨render⟩

end EntityModel.ValueType
