/-!
# The catalogue of symbol kinds

A reflection compiler labels every documented symbol with a numeric kind
code, one bit per kind.  This module lists the kinds, gives each its code and
name, and answers the three questions the index asks about a kind: whether it
is listed, which style class its link carries, and on which page it lives.

`Kind.ofCode?` is the inverse of `Kind.code`, and `Kind.ofName?` that of
`Kind.name`; a code with no kind is reported, never guessed.
-/

namespace Concordance

/-- The kinds of documented symbols, in the order of their codes. -/
inductive Kind where
  | project
  | moduleScope
  | namespaceScope
  | enum
  | enumMember
  | variableBinding
  | function
  | classType
  | interface
  | constructor
  | property
  | method
  | callSignature
  | indexSignature
  | constructorSignature
  | parameter
  | typeLiteral
  | typeParameter
  | accessor
  | getSignature
  | setSignature
  | objectLiteral
  | typeAlias
  | event
  | reference
  deriving DecidableEq, Repr

namespace Kind

/-- Every kind once, in catalogue order. -/
def all : List Kind :=
  [project, moduleScope, namespaceScope, enum, enumMember, variableBinding, function,
    classType, interface, constructor, property, method, callSignature,
    indexSignature, constructorSignature, parameter, typeLiteral,
    typeParameter, accessor, getSignature, setSignature, objectLiteral,
    typeAlias, event, reference]

/-- The code of a kind: one bit each. -/
def code : Kind → UInt32
  | project => 0x1
  | moduleScope => 0x2
  | namespaceScope => 0x4
  | enum => 0x8
  | enumMember => 0x10
  | variableBinding => 0x20
  | function => 0x40
  | classType => 0x80
  | interface => 0x100
  | constructor => 0x200
  | property => 0x400
  | method => 0x800
  | callSignature => 0x1000
  | indexSignature => 0x2000
  | constructorSignature => 0x4000
  | parameter => 0x8000
  | typeLiteral => 0x10000
  | typeParameter => 0x20000
  | accessor => 0x40000
  | getSignature => 0x80000
  | setSignature => 0x100000
  | objectLiteral => 0x200000
  | typeAlias => 0x400000
  | event => 0x800000
  | reference => 0x1000000

/-- The name of a kind as it appears in messages. -/
def name : Kind → String
  | project => "Project"
  | moduleScope => "Module"
  | namespaceScope => "Namespace"
  | enum => "Enum"
  | enumMember => "EnumMember"
  | variableBinding => "Variable"
  | function => "Function"
  | classType => "Class"
  | interface => "Interface"
  | constructor => "Constructor"
  | property => "Property"
  | method => "Method"
  | callSignature => "CallSignature"
  | indexSignature => "IndexSignature"
  | constructorSignature => "ConstructorSignature"
  | parameter => "Parameter"
  | typeLiteral => "TypeLiteral"
  | typeParameter => "TypeParameter"
  | accessor => "Accessor"
  | getSignature => "GetSignature"
  | setSignature => "SetSignature"
  | objectLiteral => "ObjectLiteral"
  | typeAlias => "TypeAlias"
  | event => "Event"
  | reference => "Reference"

/-- The kind that has a given code, if there is one. -/
def ofCode? (kindCode : UInt32) : Option Kind :=
  all.find? fun kind => kind.code == kindCode

/-- The kind that has a given name, if there is one. -/
def ofName? (kindName : String) : Option Kind :=
  all.find? fun kind => kind.name == kindName

@[simp]
theorem ofCode?_code (kind : Kind) : ofCode? kind.code = some kind := by
  cases kind <;> decide

/-- Names tell the kinds apart, so a message that names a kind is clear about it. -/
@[simp]
theorem ofName?_name (kind : Kind) : ofName? kind.name = some kind := by
  cases kind <;> decide

/-- Kinds whose symbols get a page of their own. -/
def hasOwnPage : Kind → Bool
  | classType | enum | typeAlias => true
  | _ => false

/-- The style class of an index link, for the kinds the index can show. -/
def renderClass? : Kind → Option String
  | namespaceScope => some "tsd-kind-namespace"
  | enum => some "tsd-kind-enum"
  | variableBinding => some "tsd-kind-variable"
  | function => some "tsd-kind-function"
  | classType => some "tsd-kind-class"
  | interface => some "tsd-kind-interface"
  | typeAlias => some "tsd-kind-type-alias"
  | event => some "tsd-kind-event"
  | _ => none

/-- The directory that holds a kind's pages under the nested page layout. -/
def pageDirectory : Kind → String
  | classType => "classes"
  | enum => "enums"
  | typeAlias => "types"
  | _ => "modules"

end Kind

/-- What the index does with a symbol of some kind. -/
inductive Disposition where
  /-- The symbol is listed. -/
  | index
  /-- The symbol is passed over, its children are visited. -/
  | skip
  /-- The symbol must not occur where the index looks. -/
  | unhandled
  deriving DecidableEq, Repr

/-- The disposition of each kind. -/
def Kind.disposition : Kind → Disposition
  | .namespaceScope | .enum | .variableBinding | .function | .classType | .interface
  | .typeAlias | .event => .index
  | .project | .moduleScope | .enumMember | .constructor | .property | .method
  | .accessor => .skip
  | .callSignature | .indexSignature | .constructorSignature | .parameter
  | .typeLiteral | .typeParameter | .getSignature | .setSignature
  | .objectLiteral | .reference => .unhandled

/-- Every listed kind has a style class. -/
theorem Kind.renderClass?_isSome_of_index
    {kind : Kind}
    (listed : kind.disposition = .index) :
    kind.renderClass?.isSome := by
  cases kind <;> simp_all [Kind.disposition, Kind.renderClass?]

end Concordance
