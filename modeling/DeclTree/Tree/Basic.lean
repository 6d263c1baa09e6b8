import DeclTree.Name
import DeclTree.Provenance

/-!
# Declaration trees

The tree is built in three storeys. Types, parameters and type parameters refer to one another.
Members are signatures over types, or class-like declarations that hold members again. Modules hold
declarations, among them modules, and submodules beside them.

A tree may also hold what no rule knows: a declaration that is missing, a declaration from outside
and a type from outside, each from outside with the label of its origin. Only a list of declarations
can hold a missing entry: lists of types, parameters, members and the like hold no such entries, and
a name that every node of its kind has is never absent. What a traversal would do there is not
described.
-/

set_option autoImplicit false
set_option relaxedAutoImplicit false

namespace DeclTree

/-- The identity of a declaration; empty where it has none. -/
abbrev Uid := String

mutual

/-- What may fill a type slot. -/
inductive Ty where
  | named (name : Name) (args : List Ty) (target : Option Uid) (nullable : Bool)
      (tags : Provenance)
  | function (params : List Param) (result : Option Ty) (nullable : Bool) (tags : Provenance)
  | union (alternatives : List Ty) (nullable : Bool) (tags : Provenance)
  | self (nullable : Bool) (tags : Provenance)
  | generated (name : Name) (typeParams : List TypeParam) (target : Option Uid) (nullable : Bool)
      (tags : Provenance)
  | foreign (label : String)

/-- A parameter of a function, a method, a constructor or a function type. -/
structure Param where
  name : String
  type : Option Ty
  isOptional : Bool
  isVararg : Bool

/-- A generic parameter with its bounds and its default. -/
structure TypeParam where
  name : Name
  constraints : List Ty
  default : Option Ty

end

/-- A supertype of a class-like declaration. -/
structure Heritage where
  name : Name
  args : List Ty
  target : Option Uid

/-- The receiver of an extension function or extension variable. -/
structure Receiver where
  name : Name
  typeParams : List Name

structure Function where
  name : Name
  typeParams : List TypeParam
  params : List Param
  result : Option Ty
  receiver : Option Receiver
  isInline : Bool
  isOperator : Bool
  isExported : Bool
  uid : Uid
  tags : Provenance

structure Variable where
  name : Name
  type : Option Ty
  receiver : Option Receiver
  isImmutable : Bool
  isInline : Bool
  isExported : Bool
  tags : Provenance

structure TypeAlias where
  name : Name
  typeParams : List TypeParam
  type : Option Ty
  uid : Uid
  tags : Provenance

/-- One value of an enumeration, with the literal it had in the source. -/
structure Token where
  value : String
  literal : String

structure Enum where
  name : Name
  tokens : List Token
  uid : Uid

structure Method where
  name : String
  typeParams : List TypeParam
  params : List Param
  result : Option Ty
  isStatic : Bool
  isOverride : Bool
  isOperator : Bool

structure Property where
  name : String
  typeParams : List TypeParam
  type : Option Ty
  isStatic : Bool
  isOverride : Bool
  hasGetter : Bool
  hasSetter : Bool
  isOpen : Bool

structure Constructor where
  typeParams : List TypeParam
  params : List Param

/-- Which class-like declaration it is; an object has no type parameters. -/
inductive ClassForm where
  | cls (isAbstract : Bool) (typeParams : List TypeParam)
  | interface (isGenerated : Bool) (typeParams : List TypeParam)
  | object

/-- A class-like declaration without its members. -/
structure ClassHead where
  form : ClassForm
  name : Name
  parents : List Heritage
  isExported : Bool
  uid : Uid
  tags : Provenance

/-- What may stand in the body of a class-like declaration. -/
inductive Member where
  | method (m : Method)
  | property (p : Property)
  | constructor (c : Constructor)
  | function (f : Function)
  | classLike (head : ClassHead) (members : List Member)

/-- An annotation of a module in the target language. -/
structure Annotation where
  name : String
  params : List String
  deriving DecidableEq, Repr

/-- A module without what it holds. -/
structure ModuleHead where
  name : Option Name
  shortName : Option Name
  uid : Uid
  imports : List Name
  annotations : List Annotation

mutual

/-- What may stand among the declarations of a module. -/
inductive Decl where
  | module (m : Module)
  | classLike (head : ClassHead) (members : List Member)
  | function (f : Function)
  | var (v : Variable)
  | typeAlias (a : TypeAlias)
  | enum (e : Enum)
  | foreign (label : String)
  | missing

/-- A package or namespace. -/
structure Module where
  head : ModuleHead
  declarations : List Decl
  submodules : List Module

end

/-- The type parameters of a class-like declaration. -/
def ClassForm.typeParams : ClassForm → List TypeParam
  | .cls _ typeParams => typeParams
  | .interface _ typeParams => typeParams
  | .object => []

/-- The form with other type parameters, where it has any. -/
def ClassForm.withTypeParams (typeParams : List TypeParam) : ClassForm → ClassForm
  | .cls isAbstract _ => .cls isAbstract typeParams
  | .interface isGenerated _ => .interface isGenerated typeParams
  | .object => .object

def ClassHead.typeParams (head : ClassHead) : List TypeParam := head.form.typeParams

/-- A reference to the declaration with an identity; none to the empty identity. -/
def Uid.reference? (uid : Uid) : Option Uid := if uid = "" then none else some uid

namespace Ty

/-- The name of the type above all others. -/
def topName : Name := .ident "Any"

/-- The name alone as a type. -/
def bare (name : Name) : Ty := .named name [] none false .empty

/-- The type above all others, under the given name or its usual one. -/
def top (name : Option Name) (nullable : Bool) (tags : Provenance) : Ty :=
  .named (name.getD topName) [] none nullable tags

def isNullable : Ty → Bool
  | .named _ _ _ nullable _ => nullable
  | .function _ _ nullable _ => nullable
  | .union _ nullable _ => nullable
  | .self nullable _ => nullable
  | .generated _ _ _ nullable _ => nullable
  | .foreign _ => false

def tags : Ty → Provenance
  | .named _ _ _ _ tags => tags
  | .function _ _ _ tags => tags
  | .union _ _ tags => tags
  | .self _ tags => tags
  | .generated _ _ _ _ tags => tags
  | .foreign _ => .empty

end Ty

/-- A file's root module; absent where the file gave none. -/
structure Source where
  file : String
  root : Option Module

/-- The roots that are lowered together. -/
structure SourceSet where
  name : String
  sources : List Source

end DeclTree
