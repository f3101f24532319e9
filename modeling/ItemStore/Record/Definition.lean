import ItemStore.Record.Codec
import ItemStore.Shape.Schema
import ItemStore.Text.CharCase
/-!
# Record definitions

A record type is defined by its fields, with annotations that say how it is stored: the
table, the keys, the indexes, the attribute names, and what is left out.  `Definition.shape`
and `Definition.document` check the annotations and give each field its part; what follows
from the parts (declaration, mapper, attribute handles) is read off them.  A definition is
generic in how field types are written, since the rules only ask of a type whether it is an
option and of what.
-/
namespace ItemStore

/-! ## Attribute names -/

inductive Renaming where
  | none | camel | snake | pascal
  deriving DecidableEq

namespace Renaming

def ofRule? : String → Option Renaming
  | "camelCase" => some camel
  | "snake_case" => some snake
  | "PascalCase" => some pascal
  | _ => Option.none

/-- The parts of a field name between underscores. -/
def words (cs : List Char) : List (List Char) := (cs.splitOnP (· == '_')).filter (· ≠ [])

def capitalized : List Char → List Char
  | [] => []
  | c :: rest => Text.upperChar c ++ rest

def uncapitalized : List Char → List Char
  | [] => []
  | c :: rest => Text.lowerChar c ++ rest

def apply (r : Renaming) (field : String) : String :=
  match r with
  | none | snake => field
  | pascal => String.ofList ((words field.toList).flatMap capitalized)
  | camel => String.ofList (uncapitalized ((words field.toList).flatMap capitalized))

end Renaming

/-! ## Definitions -/

/-- An annotation: a flag, or a key with a value. -/
structure Annotation where
  key : String
  value : Option String

structure FieldDefinition (τ : Type) where
  /-- As written, with the mark `r#` of a name that would be a keyword. -/
  ident : String
  type : τ
  annotations : List Annotation

inductive RecordBody (τ : Type) where
  | fields (fields : List (FieldDefinition τ))
  /-- Fields without names, or none at all. -/
  | unnamed
  | variants

structure Definition (τ : Type) where
  name : String
  hasParameters : Bool
  annotations : List Annotation
  body : RecordBody τ

/-- What the rules ask of a type: for an option, the type inside. -/
class OptionalType (τ : Type) where
  inner? : τ → Option τ

instance : OptionalType FieldType where
  inner?
    | .option inner => some inner
    | _ => none

def unmarked (ident : String) : String :=
  if "r#".toList.isPrefixOf ident.toList then String.ofList (ident.toList.drop 2) else ident

/-- What is being defined: the record of a table, or a part of other records. -/
inductive RecordUse where
  | shape | document
  deriving DecidableEq

def RecordUse.name : RecordUse → String
  | shape => "Shape"
  | document => "Document"

/-! ## Faults -/

inductive DefinitionFault where
  | parameters (use : RecordUse)
  | unnamedFields (use : RecordUse)
  | variants (use : RecordUse)
  | emptyTable
  | unknownRenaming (rule : String)
  | unknownNote
  | unknownFieldNote
  | missingValue
  | superfluousValue
  | secondRole
  | emptyAttribute
  | skippedWithNotes
  | nullableKey
  | optionalKey
  | duplicateAttribute (name : String)
  | missingTable
  | secondKey (role : KeyRole)
  | missingPartition
  | mixedIndex (index : String)
  | secondIndexKey (index : String) (role : KeyRole)
  | indexWithoutPartition (index : String)
  | documentTable
  | documentKey
  deriving DecidableEq

def roleName : KeyRole → String
  | .partition => "partition"
  | _ => "sort"

def DefinitionFault.message : DefinitionFault → String
  | parameters use => s!"#[derive({use.name})] does not support generic types"
  | unnamedFields use => s!"#[derive({use.name})] needs a struct with named fields"
  | variants use => s!"#[derive({use.name})] only supports structs"
  | emptyTable => "table name must not be empty"
  | unknownRenaming rule =>
    s!"unknown rename_all rule '{rule}', expected camelCase, snake_case or PascalCase"
  | unknownNote => "unknown dynaq container attribute"
  | unknownFieldNote => "unknown dynaq field attribute"
  | missingValue => "expected \x60=\x60"
  | superfluousValue => "expected \x60,\x60"
  | secondRole => "a field can hold only one key role"
  | emptyAttribute => "attribute name must not be empty"
  | skippedWithNotes => "a skipped field cannot carry other dynaq attributes"
  | nullableKey => "key attributes cannot be nullable"
  | optionalKey => "key attributes cannot be optional"
  | duplicateAttribute name => s!"duplicate attribute name '{name}'"
  | missingTable => "#[derive(Shape)] needs #[dynaq(table = \"...\")]"
  | secondKey role => s!"more than one {roleName role} key"
  | missingPartition => "missing #[dynaq(partition_key)] field"
  | mixedIndex index => s!"index '{index}' is declared both local and global"
  | secondIndexKey index role => s!"index '{index}' has more than one {roleName role} attribute"
  | indexWithoutPartition index => s!"global index '{index}' has no gsi_partition attribute"
  | documentTable => "nested documents have no table, use #[derive(Shape)]"
  | documentKey => "keys and indexes are only allowed on #[derive(Shape)]"

/-! ## Annotations of the record -/

namespace Annotation

/-- The value of an annotation that needs one. -/
def needValue (a : Annotation) : Except DefinitionFault String :=
  match a.value with
  | some v => .ok v
  | none => .error .missingValue

/-- Accepts a flag, which has no value. -/
def needFlag {α : Type} (a : Annotation) (x : α) : Except DefinitionFault α :=
  match a.value with
  | some _ => .error .superfluousValue
  | none => .ok x

end Annotation

structure RecordNotes where
  table : Option String
  rule : Renaming

def RecordNotes.add (n : RecordNotes) (a : Annotation) : Except DefinitionFault RecordNotes :=
  match a.key with
  | "table" => do
    let table ← a.needValue
    if table = "" then .error .emptyTable else .ok { n with table := some table }
  | "rename_all" => do
    let text ← a.needValue
    match Renaming.ofRule? text with
    | some rule => .ok { n with rule }
    | none => .error (.unknownRenaming text)
  | _ => .error .unknownNote

/-! ## Annotations of fields -/

/-- A field with what its annotations say. -/
structure FieldPart (τ : Type) where
  ident : String
  type : τ
  name : String
  role : KeyRole
  nullable : Bool
  skip : Bool
  gsiPartition : Option String
  gsiSort : Option String
  lsi : Option String

namespace FieldPart

variable {τ : Type}

def hasIndex (f : FieldPart τ) : Bool :=
  f.gsiPartition.isSome || f.gsiSort.isSome || f.lsi.isSome

def setRole (f : FieldPart τ) (role : KeyRole) : Except DefinitionFault (FieldPart τ) :=
  if f.role = .none then .ok { f with role } else .error .secondRole

def add (f : FieldPart τ) (a : Annotation) : Except DefinitionFault (FieldPart τ) :=
  match a.key with
  | "partition_key" => do a.needFlag (← f.setRole .partition)
  | "sort_key" => do a.needFlag (← f.setRole .sort)
  | "rename" => do
    let name ← a.needValue
    if name = "" then .error .emptyAttribute else .ok { f with name }
  | "nullable" => a.needFlag { f with nullable := true }
  | "skip" => a.needFlag { f with skip := true }
  | "gsi_partition" => do return { f with gsiPartition := some (← a.needValue) }
  | "gsi_sort" => do return { f with gsiSort := some (← a.needValue) }
  | "lsi" => do return { f with lsi := some (← a.needValue) }
  | _ => .error .unknownFieldNote

/-- Keys are always there, and a skipped field is nothing else. -/
def check [OptionalType τ] (f : FieldPart τ) : Except DefinitionFault (FieldPart τ) :=
  if f.skip && (f.role != .none || f.nullable || f.hasIndex) then .error .skippedWithNotes
  else if f.role = .none then .ok f
  else if f.nullable then .error .nullableKey
  else if (OptionalType.inner? f.type).isSome then .error .optionalKey
  else .ok f

def ofDefinition [OptionalType τ] (rule : Renaming) (d : FieldDefinition τ) :
    Except DefinitionFault (FieldPart τ) := do
  let start : FieldPart τ :=
    { ident := d.ident, type := d.type, name := rule.apply (unmarked d.ident), role := .none
      nullable := false, skip := false, gsiPartition := none, gsiSort := none, lsi := none }
  (← d.annotations.foldlM add start).check

end FieldPart

/-! ## Indexes -/

/-- One more attribute of an index among those found so far, by name. -/
def addToIndex (indexes : Entries IndexDeclaration) (index : String) (kind : IndexKind)
    (role : KeyRole) (name : String) : Except DefinitionFault (Entries IndexDeclaration) :=
  let found := (indexes.get? index).getD ⟨index, kind, none, none⟩
  if found.kind ≠ kind then .error (.mixedIndex index)
  else if role = .partition then
    if found.partition.isSome then .error (.secondIndexKey index role)
    else .ok (indexes.put index { found with partition := some name })
  else if found.sort.isSome then .error (.secondIndexKey index role)
  else .ok (indexes.put index { found with sort := some name })

def addIndexes {τ : Type} (indexes : Entries IndexDeclaration) (f : FieldPart τ) :
    Except DefinitionFault (Entries IndexDeclaration) := do
  let add (indexes : Entries IndexDeclaration) (index : Option String) (kind : IndexKind)
      (role : KeyRole) : Except DefinitionFault (Entries IndexDeclaration) :=
    match index with
    | some index => addToIndex indexes index kind role f.name
    | none => .ok indexes
  let indexes ← add indexes f.gsiPartition .global .partition
  let indexes ← add indexes f.gsiSort .global .sort
  add indexes f.lsi .local .sort

/-- The indexes that the fields form, in the order of their names. -/
def collectIndexes {τ : Type} (fields : List (FieldPart τ)) :
    Except DefinitionFault (List IndexDeclaration) := do
  let indexes := (← fields.foldlM addIndexes []).map Prod.snd
  match indexes.find? fun i => i.kind == .global && i.partition.isNone with
  | some i => .error (.indexWithoutPartition i.name)
  | none => .ok indexes

/-! ## Records and shapes -/

/-- A checked record: all fields with their parts. -/
structure RecordParts (τ : Type) where
  name : String
  fields : List (FieldPart τ)

/-- A checked record of a table. -/
structure ShapeParts (τ : Type) extends RecordParts τ where
  table : String
  partition : FieldPart τ
  sort : Option (FieldPart τ)
  indexes : List IndexDeclaration

namespace RecordParts

variable {τ : Type}

/-- The fields that are stored. -/
def persisted (r : RecordParts τ) : List (FieldPart τ) := r.fields.filter fun f => !f.skip

/-- Each stored field with its attribute and whether it is written as a null. -/
def encodings (r : RecordParts τ) : List (String × String × Bool) :=
  r.persisted.map fun f => (f.ident, f.name, f.nullable)

def skipped (r : RecordParts τ) : List String := (r.fields.filter (·.skip)).map (·.ident)

end RecordParts

/-- The first name that stands twice. -/
def firstRepeated : List String → List String → Option String
  | _, [] => none
  | seen, x :: rest => if x ∈ seen then some x else firstRepeated (x :: seen) rest


/-- Which of two repeated roles is noticed first, going through the fields. -/
def repeatedRole? {τ : Type} : Bool → Bool → List (FieldPart τ) → Option KeyRole
  | _, _, [] => none
  | partition, sort, f :: rest =>
    match f.role with
    | .none => repeatedRole? partition sort rest
    | .partition => if partition then some .partition else repeatedRole? true sort rest
    | .sort => if sort then some .sort else repeatedRole? partition true rest

namespace Definition

variable {τ : Type} [OptionalType τ]

def notes (d : Definition τ) : Except DefinitionFault RecordNotes :=
  d.annotations.foldlM RecordNotes.add ⟨none, .none⟩

/-- What shapes and documents have in common. -/
def parts (use : RecordUse) (d : Definition τ) :
    Except DefinitionFault (RecordNotes × RecordParts τ) := do
  if d.hasParameters then .error (.parameters use)
  else
    match d.body with
    | .unnamed => .error (.unnamedFields use)
    | .variants => .error (.variants use)
    | .fields fields =>
      let notes ← d.notes
      let fields ← fields.mapM (FieldPart.ofDefinition notes.rule)
      let record : RecordParts τ := ⟨unmarked d.name, fields⟩
      match firstRepeated [] (record.persisted.map (·.name)) with
      | some name => .error (.duplicateAttribute name)
      | none => .ok (notes, record)

def document (d : Definition τ) : Except DefinitionFault (RecordParts τ) := do
  let (notes, record) ← d.parts .document
  if notes.table.isSome then .error .documentTable
  else if record.fields.any fun f => f.role != .none || f.hasIndex then .error .documentKey
  else .ok record

def shape (d : Definition τ) : Except DefinitionFault (ShapeParts τ) := do
  let (notes, record) ← d.parts .shape
  match notes.table with
  | none => .error .missingTable
  | some table =>
    match repeatedRole? false false record.persisted with
    | some role => .error (.secondKey role)
    | none =>
      let sort := record.persisted.find? fun f => f.role == .sort
      match record.persisted.find? fun f => f.role == .partition with
      | none => .error .missingPartition
      | some partition =>
        return { record with table, partition, sort, indexes := ← collectIndexes record.fields }

end Definition

namespace ShapeParts

variable {τ : Type} [OptionalType τ]

/-- The type of a field, an option taken off. -/
def bareType (f : FieldPart τ) : τ := (OptionalType.inner? f.type).getD f.type

/-- The handle of each stored field: its name in capitals, the attribute and the type. -/
def handles (s : ShapeParts τ) : List (String × String × τ) :=
  s.persisted.map fun f => (Text.upper (unmarked f.ident), f.name, bareType f)

/-- The types that have to be fit for keys: the table's, then those in indexes only. -/
def keyTypes (s : ShapeParts τ) : List τ :=
  (s.partition :: s.sort.toList
    ++ s.persisted.filter fun f => f.hasIndex && f.role == .none).map bareType

end ShapeParts

/-! ## With types known: declaration and mapper -/

/-- The fields as the mapper goes through them. -/
def fieldListOf : List (FieldPart FieldType) → FieldList
  | [] => .nil
  | f :: rest =>
    if f.skip then .skipped f.type (fieldListOf rest)
    else .stored f.name f.type f.nullable (fieldListOf rest)

def RecordParts.recordType (r : RecordParts FieldType) : RecordType :=
  ⟨r.name, fieldListOf r.fields⟩

def ShapeParts.declaration (s : ShapeParts FieldType) : Declaration where
  name := s.name
  table := s.table
  attributes := s.persisted.map fun f =>
    { name := f.name, kind := f.type.kind, optional := f.type.isOptional, nullable := f.nullable
      role := f.role }
  indexes := s.indexes

end ItemStore
