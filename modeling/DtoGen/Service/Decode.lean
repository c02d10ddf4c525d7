import DtoGen.Service.Basic
import DtoGen.Service.Fields

namespace DtoGen.Read

open Fields

/-- The tag of an object; it may be absent, and admits one spelling. -/
def tagField (key tag : String) : Fields Unit :=
  optional (.plain key) () (choice .notChoice (fun _ => tag) [()])

def description : Fields (Option String) := optional (.plain "description") none (nullable string)

def deprecated : Fields Bool := optional (.plain "deprecated") false bool

def name : Fields String := required (.plain "name") string

def arrayFlag : Fields Bool := optional ⟨"isArray", "is_array"⟩ false bool

def optionalFlag : Fields Bool := optional ⟨"isOptional", "is_optional"⟩ false bool

def nullableFlag : Fields Bool := optional ⟨"isNullable", "is_nullable"⟩ false bool

def constant : Fields Literal := required (.plain "value") literal

def primitiveValue : Fields Value :=
  (fun _ k a o n c => ⟨.primitive k c, a, o, n⟩) <$> tagField "kind" "PrimitiveValue"
    <*> required ⟨"typeName", "type_name"⟩ (choice .notPrimitive Primitive.name Primitive.all)
    <*> arrayFlag <*> optionalFlag <*> nullableFlag
    <*> optional (.plain "constant") none (nullable constant.object)

def reference : Fields Reference :=
  (fun _ t a o n => ⟨t, a, o, n⟩) <$> tagField "kind" "ComplexValue"
    <*> required ⟨"typeName", "type_name"⟩ string
    <*> arrayFlag <*> optionalFlag <*> nullableFlag

def value : Reader Value :=
  tagged "kind" [("PrimitiveValue", primitiveValue), ("ComplexValue", Reference.toValue <$> reference)]

def property : Fields Property :=
  Property.mk <$> name <*> required (.plain "value") value <*> description <*> deprecated

def mapClause : Fields MapClause :=
  MapClause.mk <$> required (.plain "key") value <*> required (.plain "value") value
    <*> optional ⟨"requiredKeys", "required_keys"⟩ [] (list string)

def atMost : Fields SizeRule :=
  (fun _ n => .atMost n) <$> tagField "id" "ObjectMaxProperties" <*> required (.plain "max") int

def atLeast : Fields SizeRule :=
  (fun _ n => .atLeast n) <$> tagField "id" "ObjectMinProperties" <*> required (.plain "min") int

def sizeRule : Reader SizeRule :=
  tagged "id" [("ObjectMaxProperties", atMost), ("ObjectMinProperties", atLeast)]

def typeDecl : Fields TypeDecl :=
  TypeDecl.mk <$> name
    <*> optional (.plain "properties") [] (list property.object)
    <*> optional ⟨"mapProperties", "map_properties"⟩ none (nullable mapClause.object)
    <*> optional (.plain "rules") [] (list sizeRule)
    <*> description <*> deprecated

def enumMember : Fields EnumMember :=
  EnumMember.mk <$> required (.plain "content") string <*> description

def enumDecl : Fields EnumDecl :=
  EnumDecl.mk <$> name <*> optional (.plain "members") [] (list enumMember.object)
    <*> description <*> deprecated

def simpleUnion : Fields UnionDecl :=
  (fun _ n ms => UnionDecl.mk n (.simple ms)) <$> tagField "kind" "SimpleUnion" <*> name
    <*> optional (.plain "members") [] (list value)
    <*> description <*> deprecated

def discriminatedUnion : Fields UnionDecl :=
  (fun _ n d ms => UnionDecl.mk n (.discriminated d ms)) <$> tagField "kind" "DiscriminatedUnion"
    <*> name
    <*> required (.plain "discriminator") string
    <*> optional (.plain "members") [] (list reference.object)
    <*> description <*> deprecated

def unionDecl : Reader UnionDecl :=
  tagged "kind" [("SimpleUnion", simpleUnion), ("DiscriminatedUnion", discriminatedUnion)]

def parameter : Fields Parameter :=
  Parameter.mk <$> name <*> required (.plain "value") value <*> description <*> deprecated

def method : Fields Method :=
  Method.mk <$> name
    <*> optional (.plain "parameters") [] (list parameter.object)
    <*> optional (.plain "returns") none (nullable value)
    <*> description <*> deprecated

def httpParameter : Fields HttpParameter :=
  HttpParameter.mk <$> name
    <*> required (.plain "location")
      (choice .notChoice ParameterLocation.name ParameterLocation.all)
    <*> optional ⟨"arrayFormat", "array_format"⟩ none
      (nullable (choice .notChoice ArrayFormat.name ArrayFormat.all))

def httpMethod : Fields HttpMethod :=
  HttpMethod.mk <$> name <*> required (.plain "verb") string
    <*> optional ⟨"successCode", "success_code"⟩ 200 int
    <*> optional (.plain "parameters") [] (list httpParameter.object)

def httpRoute : Fields HttpRoute :=
  HttpRoute.mk <$> required (.plain "pattern") string
    <*> optional (.plain "methods") [] (list httpMethod.object)

def interface : Fields Interface :=
  Interface.mk <$> name
    <*> optional (.plain "methods") [] (list method.object)
    <*> optional (.plain "http") [] (list httpRoute.object)
    <*> description <*> deprecated

def service : Fields Service :=
  Service.mk <$> required (.plain "title") string
    <*> optional ⟨"majorVersion", "major_version"⟩ 1 int
    <*> optional (.plain "interfaces") [] (list interface.object)
    <*> optional (.plain "types") [] (list typeDecl.object)
    <*> optional (.plain "enums") [] (list enumDecl.object)
    <*> optional (.plain "unions") [] (list unionDecl)

end DtoGen.Read
