import Mathlib.Data.List.Forall2
import OpcUa.Value

/-!
Values that are the same but for their extension objects, which stand in a given relation. An
extension object is related as a whole: what stands inside its body is up to the relation.
-/

namespace OpcUa

variable (objects : ExtensionObject → ExtensionObject → Prop)

mutual

inductive Value.Alike : Value → Value → Prop
  | atom (held : Atom) : Value.Alike (.atom held) (.atom held)
  | extensionObject {held other : ExtensionObject} : objects held other →
      Value.Alike (.extensionObject held) (.extensionObject other)
  | dataValue {held other : DataValue} : DataValue.Alike held other →
      Value.Alike (.dataValue held) (.dataValue other)
  | variant {held other : Variant} : Variant.Alike held other →
      Value.Alike (.variant held) (.variant other)

inductive Variant.Alike : Variant → Variant → Prop
  | null : Variant.Alike .null .null
  | scalar {held other : Value} : Value.Alike held other →
      Variant.Alike (.scalar held) (.scalar other)
  | array {type : BuiltInType} {held other : List Value} {sizes : List Int32} :
      List.Forall₂ Value.Alike held other →
      Variant.Alike (.array type held sizes) (.array type other sizes)

inductive DataValue.Alike : DataValue → DataValue → Prop
  | mk {held other : Variant} {status : StatusCode} {source server : DateTime}
      {sourcePico serverPico : UInt16} : Variant.Alike held other →
      DataValue.Alike (.mk held status source sourcePico server serverPico)
        (.mk other status source sourcePico server serverPico)

end

mutual

inductive Structure.Alike : Structure → Structure → Prop
  | mk {schema : Schema} {held other : List FieldValue} : List.Forall₂ FieldValue.Alike held other →
      Structure.Alike (.mk schema held) (.mk schema other)

inductive FieldValue.Alike : FieldValue → FieldValue → Prop
  | value {held other : Value} : held.Alike objects other →
      FieldValue.Alike (.value held) (.value other)
  | array {held other : Variant} : held.Alike objects other →
      FieldValue.Alike (.array held) (.array other)
  | list {type : BuiltInType} {held other : List Value} :
      List.Forall₂ (Value.Alike objects) held other →
      FieldValue.Alike (.list type held) (.list type other)
  | enumeration (number : Int32) : FieldValue.Alike (.enumeration number) (.enumeration number)
  | nested {held other : Structure} : Structure.Alike held other →
      FieldValue.Alike (.nested held) (.nested other)

end

end OpcUa
