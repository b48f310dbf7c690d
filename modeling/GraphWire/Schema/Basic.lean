import GraphWire.OrderedMap
import GraphWire.Scalar.Basic
import GraphWire.Store

/-!
# `GraphWire.Schema.Basic` — schemas and the shapes of their fields

A schema declares the fields of the objects that carry its tag. It may extend a parent schema and
then has the parent's fields too, before its own. Two schemas are the same if their keys are; their
tags may clash.

## Contents
- **Shapes.** `Element`, one scalar or one reference; `FieldKind`, a single element, an optional
  one, a sequence or a mapping; the carriers of both.
- **`Schema`**, its own layer and those of its ancestors, with `Schema.declare`, `Schema.extend`.
- **`Catalogue`**, the schemas that references may ask for.
- **Names.** `keysField` and `snakeTag`.
-/

namespace GraphWire

/-! ## Shapes of fields -/

/-- A schema by name: its key and its tag. -/
structure SchemaRef where
  key : String
  tag : String
  deriving DecidableEq

/-- One element of a field. -/
inductive Element where
  | scalar (t : ScalarType)
  | object (schema : SchemaRef)
  deriving DecidableEq

/-- What an element is read as; a reference is read as a walker. -/
abbrev Element.Carrier : Element → Type
  | scalar t => t.Carrier
  | object _ => Walker

/-- The shape of a field. -/
inductive FieldKind where
  | single (e : Element)
  | optional (e : Element)
  | sequence (e : Element)
  | mapping (e : Element)
  deriving DecidableEq

namespace FieldKind

/-- What a field of the shape is read as. -/
abbrev Carrier : FieldKind → Type
  | single e => e.Carrier
  | optional e => Option e.Carrier
  | sequence e => List e.Carrier
  | mapping e => OrderedMap e.Carrier

end FieldKind

/-- A declared field. -/
structure FieldDecl where
  name : String
  kind : FieldKind
  deriving DecidableEq

/-! ## Schemas -/

/-- One declaration: a schema's key and tag, the tag of its parent, and the fields it adds. -/
structure Layer where
  key : String
  tag : String
  parentTag : Option String
  fields : List FieldDecl
  deriving DecidableEq

/-- A schema: its own declaration and those of its ancestors, the parent's first. -/
structure Schema where
  own : Layer
  ancestors : List Layer
  deriving DecidableEq

namespace Schema

/-- A schema without a parent. -/
def declare (key tag : String) (fields : List FieldDecl) : Schema :=
  ⟨⟨key, tag, none, fields⟩, []⟩

/-- A schema that adds fields to those of its parent. -/
def extend (parent : Schema) (key tag : String) (fields : List FieldDecl) : Schema :=
  ⟨⟨key, tag, some parent.own.tag, fields⟩, parent.own :: parent.ancestors⟩

def key (s : Schema) : String := s.own.key

def tag (s : Schema) : String := s.own.tag

def parentTag (s : Schema) : Option String := s.own.parentTag

def ref (s : Schema) : SchemaRef := ⟨s.key, s.tag⟩

/-- All declared fields, the inherited ones first. -/
def fields (s : Schema) : List FieldDecl :=
  s.ancestors.reverse.flatMap Layer.fields ++ s.own.fields

/-- The field with the name; of several declared, the last one. -/
def field? (s : Schema) (name : String) : Option FieldDecl :=
  s.fields.reverse.find? (·.name = name)

/-- The parent as a schema of its own. -/
def parent? (s : Schema) : Option Schema :=
  match s.ancestors with
  | [] => none
  | own :: ancestors => some ⟨own, ancestors⟩

end Schema

/-- The schemas that references may ask for. -/
abbrev Catalogue := List Schema

/-- The schema with the key. -/
def Catalogue.find? (catalogue : Catalogue) (key : String) : Option Schema :=
  List.find? (fun s => s.key = key) catalogue

/-! ## Names -/

/-- The field beside a mapping that holds its keys. -/
def keysField (name : String) : String := name ++ "_keys"

/-- Whether a word begins at the upper-case letter behind `before`: at an upper-case letter behind a
    lower-case letter or a digit, and at the last of several, if a lower-case letter follows. -/
def beginsWord (before : Option Char) (after : List Char) : Bool :=
  match before with
  | none => false
  | some p =>
    p.isLower || p.isDigit || (p.isUpper && after.head?.any Char.isLower)

/-- Lower case with an underscore before each word but the first; `before` is what precedes. -/
def snakeFrom (before : Option Char) : List Char → List Char
  | [] => []
  | c :: rest =>
    if c.isUpper then
      (if beginsWord before rest then ['_'] else []) ++ c.toLower :: snakeFrom (some c) rest
    else c :: snakeFrom (some c) rest

/-- The tag of a schema that is declared under the given name without one. -/
def snakeTag (name : String) : String := String.ofList (snakeFrom none name.toList)

end GraphWire
