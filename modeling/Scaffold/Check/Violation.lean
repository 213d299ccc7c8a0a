import Scaffold.Model.Provider
import Scaffold.Model.Type
import Scaffold.Source.Formula

/-! # Violations

Everything that can be wrong with a source that parses. A violation is a cause with its details;
`code` and `message` are the words for it. A diagnostic places a violation in a block, and a report
lists diagnostics by file and position. -/
namespace Scaffold.Check

open Scaffold.Source Scaffold.Model
open Scaffold.Text (quoted)

/-- The kind of block a violation is found in. -/
inductive Block
  | entity | enum | page | view | workflow | step | config
  deriving DecidableEq, Repr

def Block.name : Block → String
  | entity => "entity"
  | enum => "enum"
  | page => "page"
  | view => "view"
  | workflow => "workflow"
  | step => "step"
  | config => "config"

/-- Why a formula has no type. -/
inductive TypingError
  | unknownField (name : String)
  | unusableField (name : String) (kind : TypeKind)
  | nonNumeric (op : Operator) (left right : TypeKind)
  deriving DecidableEq, Repr

def TypingError.message : TypingError → String
  | unknownField name => "unknown field " ++ quoted name
  | unusableField name kind =>
    "field " ++ quoted name ++ " of type " ++ kind.name ++ " cannot be used in an expression"
  | nonNumeric op left right =>
    "operator " ++ op.symbol ++ " needs numeric operands, got " ++ left.name ++ " and " ++
      right.name

inductive Violation
  -- declarations
  | reservedName (block : Block) (name : String)
  | duplicateName (block : Block) (name : String) (first : Pos)
  | typeNameClash (block : Block) (name : String) (other : Block)
  | unknownConfigBlock (name : String)
  | duplicateConfig (name : String) (first : Pos)
  | emptyEnum (enum : String)
  | repeatedEnumValue (enum value : String)
  | repeatedProperty (block : Block) (name key : String)
  | unknownProperty (block : Block) (name key : String) (allowed : List String)
  -- entities
  | repeatedField (entity field : String) (first : Pos)
  | secondPrimaryKey (entity key : String)
  | repeatedModifier (field modifier : String)
  | bareEnum (field : String)
  | unknownType (field type : String)
  | listOfScalar (field : String) (type : FieldType)
  | invalidPrimaryKey (field : String)
  | targetWithoutKey (field target : String)
  | repeatedAttribute (field attr : String)
  | unknownAttribute (field attr : String)
  | repeatedArgument (field attr arg : String)
  | unknownArgument (field attr arg : String) (allowed : List String)
  | relationOnScalar (field : String) (type : FieldType)
  | relationName (field : String)
  | unknownOnDelete (field policy : String)
  | requiredSetNull (field : String)
  | virtualWithoutFormula (field : String)
  | virtualFormulaKind (field got : String)
  | virtualModifier (field : String)
  | unknownDefaultFunction (field function : String)
  | defaultFunctionArguments (field function : String)
  | defaultFunctionType (field function : String) (type : FieldType)
  | defaultType (field got : String) (type : FieldType)
  | ambiguousRelations (entity : String) (target : String) (fields : List String)
  | virtualFormula (field source : String) (error : SourceError)
  | virtualUnknownField (field ref entity : String)
  | virtualTyping (field : String) (error : TypingError)
  | virtualType (field : String) (type : FieldType) (got : TypeKind)
  | virtualCycle (field : String)
  -- configuration
  | configNameKind (got : String)
  | unknownDatabase (name : String)
  | integrationKind (block : ProviderBlock) (got : String)
  | providerMissing (block : ProviderBlock)
  | providerUnknown (block : ProviderBlock) (provider : String)
  | providerRepeats (block : ProviderBlock) (provider key : String)
  | providerUnknownProperty (block : ProviderBlock) (provider key : String)
  | providerRequires (block : ProviderBlock) (provider key : String)
  | providerPropertyKind (block : ProviderBlock) (provider key : String) (kind : PropKind)
      (got : String)
  | userEntityUnresolved (block : ProviderBlock) (provider key name : String)
  -- pages
  | pageTypeMissing (page : String)
  | pageTypeUnknown (page type : String)
  | pageEntityUnresolved (page entity : String)
  | pageEntityMissing (page : String) (kind : PageKind)
  | pageEntityWithoutKey (page entity : String)
  | pageComponentMissing (page : String)
  | pageComponentKind (page got : String)
  | pageRouteInvalid (page : String)
  | pageRouteTaken (page route other : String)
  | pageTitleKind (page got : String)
  | permissionsKind (page : String)
  | permissionKind (page got : String)
  | roleUnknown (page role : String) (known : List String)
  | misplacedProperty (page key : String) (only : PageKind)
  | fieldListKind (page key : String)
  | fieldListEntry (page key : String)
  | pageFieldUnknown (page entity field : String)
  | virtualFormField (page field : String)
  -- views
  | viewSourceMissing (view : String)
  | viewSourceUnresolved (view entity : String)
  | viewFieldsMissing (view : String)
  | viewFieldsKind (view : String)
  | viewFieldPath (view field entity : String)
  | viewUnknownField (view field ref entity : String)
  | viewListField (view field ref : String)
  | viewFormula (view field source : String) (error : SourceError)
  | viewTyping (view field : String) (error : TypingError)
  | viewFieldKind (view field got : String)
  -- workflows
  | triggerMissing (workflow : String)
  | triggerEmpty (workflow : String)
  | triggerKind (workflow got : String)
  | stepsMissing (workflow : String)
  | inputPath (workflow action key path : String)
  | inputCall (workflow action key : String)
  -- generated names
  | nameCollision (what space ident : String) (by_ : String)
  | pageNameTaken (page : String)
  | componentNameTaken (page component : String)
  deriving Repr

namespace Violation

/-- What a provider property of a kind must be, in the words of a message. -/
def wanted : PropKind → String
  | .string => "a string"
  | .secret => "a string or env(VAR)"
  | .int => "an integer"
  | .entity => "an entity name"

def allowedNames (names : List String) : String := " (allowed: " ++ ", ".intercalate names ++ ")"

def code : Violation → String
  | reservedName .. => "reserved_type_name"
  | duplicateName .. => "duplicate_name"
  | typeNameClash .. => "duplicate_type_name"
  | unknownConfigBlock .. => "config_block_unknown"
  | duplicateConfig .. => "duplicate_config"
  | emptyEnum .. => "enum_empty"
  | repeatedEnumValue .. => "duplicate_enum_value"
  | repeatedProperty .. => "duplicate_property"
  | unknownProperty .. => "unknown_property"
  | repeatedField .. => "duplicate_field"
  | secondPrimaryKey .. => "duplicate_primary_key"
  | repeatedModifier .. => "duplicate_modifier"
  | bareEnum .. => "enum_type_bare"
  | unknownType .. => "unknown_type"
  | listOfScalar .. => "list_not_relation"
  | invalidPrimaryKey .. => "primary_key_invalid"
  | targetWithoutKey .. => "relation_target_no_pk"
  | repeatedAttribute .. => "duplicate_attribute"
  | unknownAttribute .. => "unknown_attribute"
  | repeatedArgument .. => "duplicate_property"
  | unknownArgument .. => "unknown_attribute_arg"
  | relationOnScalar .. => "relation_attr_on_scalar"
  | relationName .. => "property_type"
  | unknownOnDelete .. => "on_delete_unknown"
  | requiredSetNull .. => "required_conflicts_on_delete"
  | virtualWithoutFormula .. => "virtual_from_required"
  | virtualFormulaKind .. => "property_type"
  | virtualModifier .. => "virtual_modifier_invalid"
  | unknownDefaultFunction .. => "default_func_unknown"
  | defaultFunctionArguments .. => "default_func_unknown"
  | defaultFunctionType .. => "default_type_mismatch"
  | defaultType .. => "default_type_mismatch"
  | ambiguousRelations .. => "relation_ambiguous"
  | virtualFormula .. => "virtual_expr_invalid"
  | virtualUnknownField .. => "unknown_field_ref"
  | virtualTyping .. => "virtual_expr_invalid"
  | virtualType .. => "virtual_type_mismatch"
  | virtualCycle .. => "virtual_cycle"
  | configNameKind .. => "property_type"
  | unknownDatabase .. => "db_unknown"
  | integrationKind .. => "property_type"
  | providerMissing .. => "provider_missing"
  | providerUnknown .. => "provider_unknown"
  | providerRepeats .. => "duplicate_property"
  | providerUnknownProperty .. => "config_prop_unknown"
  | providerRequires .. => "config_prop_required"
  | providerPropertyKind .. => "property_type"
  | userEntityUnresolved .. => "user_entity_unresolved"
  | pageTypeMissing .. => "page_type_missing"
  | pageTypeUnknown .. => "page_type_unknown"
  | pageEntityUnresolved .. => "page_entity_unresolved"
  | pageEntityMissing .. => "page_entity_missing"
  | pageEntityWithoutKey .. => "page_entity_no_pk"
  | pageComponentMissing .. => "page_component_missing"
  | pageComponentKind .. => "property_type"
  | pageRouteInvalid .. => "page_route_invalid"
  | pageRouteTaken .. => "page_route_duplicate"
  | pageTitleKind .. => "property_type"
  | permissionsKind .. => "property_type"
  | permissionKind .. => "property_type"
  | roleUnknown .. => "role_unknown"
  | misplacedProperty .. => "page_prop_misplaced"
  | fieldListKind .. => "property_type"
  | fieldListEntry .. => "property_type"
  | pageFieldUnknown .. => "page_field_unknown"
  | virtualFormField .. => "page_field_unknown"
  | viewSourceMissing .. => "view_source_missing"
  | viewSourceUnresolved .. => "view_source_unresolved"
  | viewFieldsMissing .. => "view_fields_missing"
  | viewFieldsKind .. => "view_fields_missing"
  | viewFieldPath .. => "view_field_invalid"
  | viewUnknownField .. => "unknown_field_ref"
  | viewListField .. => "view_field_invalid"
  | viewFormula .. => "view_field_invalid"
  | viewTyping .. => "view_field_invalid"
  | viewFieldKind .. => "view_field_invalid"
  | triggerMissing .. => "workflow_trigger_missing"
  | triggerEmpty .. => "workflow_trigger_missing"
  | triggerKind .. => "property_type"
  | stepsMissing .. => "workflow_steps_empty"
  | inputPath .. => "trigger_path_invalid"
  | inputCall .. => "workflow_input_invalid"
  | nameCollision .. => "generated_name_collision"
  | pageNameTaken .. => "generated_name_collision"
  | componentNameTaken .. => "generated_name_collision"

def message : Violation → String
  | reservedName block name => s!"{block.name} name {quoted name} is a builtin type"
  | duplicateName block name first =>
    s!"{block.name} {quoted name} already declared at {first.text}"
  | typeNameClash block name other =>
    s!"{block.name} {quoted name} clashes with {other.name} of the same name"
  | unknownConfigBlock name =>
    s!"unknown config block {quoted name} (allowed: auth, integrations)"
  | duplicateConfig name first =>
    (if name = "" then "config" else "config " ++ name) ++ " already declared at " ++ first.text
  | emptyEnum enum => s!"enum {quoted enum} has no values"
  | repeatedEnumValue enum value => s!"enum {quoted enum} repeats value {quoted value}"
  | repeatedProperty block name key =>
    s!"{block.name} {quoted name} repeats property {quoted key}"
  | unknownProperty block name key allowed =>
    s!"{block.name} {quoted name} has no property {quoted key}" ++ allowedNames allowed
  | repeatedField entity field first =>
    s!"entity {quoted entity} repeats field {quoted field} (first at {first.text})"
  | secondPrimaryKey entity key =>
    s!"entity {quoted entity} already has primary key {quoted key}"
  | repeatedModifier field modifier =>
    s!"field {quoted field} repeats modifier {quoted modifier}"
  | bareEnum field => s!"field {quoted field}: type Enum needs a declared enum name"
  | unknownType field type => s!"field {quoted field} has unknown type {quoted type}"
  | listOfScalar field type =>
    s!"field {quoted field}: only entity types can be lists, got {type.text}"
  | invalidPrimaryKey field => s!"field {quoted field}: primary key must be a required scalar"
  | targetWithoutKey field target =>
    s!"field {quoted field}: target entity {quoted target} has no primary key"
  | repeatedAttribute field attr => s!"field {quoted field} repeats @{attr}"
  | unknownAttribute field attr =>
    s!"field {quoted field}: unknown attribute @{attr} (allowed: @relation, @virtual)"
  | repeatedArgument field attr arg =>
    s!"field {quoted field}: @{attr} repeats argument {quoted arg}"
  | unknownArgument field attr arg allowed =>
    s!"field {quoted field}: @{attr} has no argument {quoted arg}" ++ allowedNames allowed
  | relationOnScalar field type =>
    s!"field {quoted field}: @relation needs an entity type, got {type.text}"
  | relationName field => s!"field {quoted field}: @relation name must be a non-empty string"
  | unknownOnDelete field policy =>
    s!"field {quoted field}: unknown onDelete policy {quoted policy}" ++
      allowedNames (OnDelete.all.map OnDelete.name)
  | requiredSetNull field =>
    s!"field {quoted field}: required relation cannot use onDelete setNull; " ++
      "make it optional or use restrict"
  | virtualWithoutFormula field => s!"field {quoted field}: @virtual requires a from expression"
  | virtualFormulaKind field got =>
    s!"field {quoted field}: @virtual from must be a string, got {got}"
  | virtualModifier field =>
    s!"field {quoted field}: virtual field cannot be a relation, a primary key or have a default"
  | unknownDefaultFunction field function =>
    s!"field {quoted field}: unknown default function {function}() " ++
      "(allowed: autoincrement, now, uuid)"
  | defaultFunctionArguments field function =>
    s!"field {quoted field}: {function}() takes no arguments"
  | defaultFunctionType field function type =>
    s!"field {quoted field}: {function}() cannot default a {type.text} field"
  | defaultType field got type =>
    s!"field {quoted field}: default {got} does not match type {type.text}"
  | ambiguousRelations entity target fields =>
    s!"entity {quoted entity} has {fields.length} relation fields to {quoted target} (" ++
      ", ".intercalate fields ++ "); each needs a distinct @relation(name: ...)"
  | virtualFormula field source error =>
    s!"field {quoted field}: invalid expression {quoted source}: {error.message}"
  | virtualUnknownField field ref entity =>
    s!"field {quoted field}: expression references unknown field {quoted ref} on {quoted entity}"
  | virtualTyping field error => s!"field {quoted field}: {error.message}"
  | virtualType field type got =>
    s!"field {quoted field} is {type.text} but its expression yields {got.name}"
  | virtualCycle field => s!"field {quoted field}: virtual expression depends on itself"
  | configNameKind got => s!"config name must be a string, got {got}"
  | unknownDatabase name => s!"unknown database {quoted name} (allowed: postgresql, sqlite)"
  | integrationKind block got => s!"integration {block.name} must be an object, got {got}"
  | providerMissing block =>
    s!"{block.name} block requires a provider" ++ allowedNames (providers block)
  | providerUnknown block provider =>
    s!"unknown {block.name} provider {quoted provider}" ++ allowedNames (providers block)
  | providerRepeats block provider key =>
    s!"{block.name} provider {quoted provider} repeats property {quoted key}"
  | providerUnknownProperty block provider key =>
    s!"{block.name} provider {quoted provider} has no property {quoted key}"
  | providerRequires block provider key =>
    s!"{block.name} provider {quoted provider} requires property {quoted key}"
  | providerPropertyKind block provider key kind got =>
    s!"{block.name} provider {quoted provider}: {key} must be {wanted kind}, got {got}"
  | userEntityUnresolved block provider key name =>
    s!"{block.name} provider {quoted provider}: {key} {quoted name} is not a declared entity"
  | pageTypeMissing page => s!"page {quoted page} has no type"
  | pageTypeUnknown page type =>
    s!"page {quoted page} has unknown type {quoted type} (allowed: table, form, details, custom)"
  | pageEntityUnresolved page entity =>
    s!"page {quoted page} references unknown entity {quoted entity}"
  | pageEntityMissing page kind => s!"page {quoted page} of type {kind.name} requires an entity"
  | pageEntityWithoutKey page entity =>
    s!"details page {quoted page}: entity {quoted entity} has no primary key to load a record by"
  | pageComponentMissing page => s!"custom page {quoted page} requires a component"
  | pageComponentKind page got =>
    s!"page {quoted page}: component must be a name or string, got {got}"
  | pageRouteInvalid page => s!"page {quoted page}: route must be a string starting with /"
  | pageRouteTaken page route other =>
    s!"page {quoted page}: route {route} already used by page {quoted other}"
  | pageTitleKind page got => s!"page {quoted page}: title must be a string, got {got}"
  | permissionsKind page => s!"page {quoted page}: permissions must be an array of roles"
  | permissionKind page got =>
    s!"page {quoted page}: permission must be a role name, got {got}"
  | roleUnknown page role known =>
    s!"page {quoted page}: permission {quoted role} is not a known role (known: " ++
      ", ".intercalate known ++ ")"
  | misplacedProperty page key only =>
    s!"page {quoted page}: {key} applies to {only.name} pages only"
  | fieldListKind page key => s!"page {quoted page}: {key} must be an array of field names"
  | fieldListEntry page key => s!"page {quoted page}: {key} entries must be field names"
  | pageFieldUnknown page entity field =>
    s!"page {quoted page}: entity {quoted entity} has no field {quoted field}"
  | virtualFormField page field =>
    s!"page {quoted page}: virtual field {quoted field} cannot be a form field"
  | viewSourceMissing view => s!"view {quoted view} has no source entity"
  | viewSourceUnresolved view entity =>
    s!"view {quoted view} references unknown entity {quoted entity}"
  | viewFieldsMissing view => s!"view {quoted view} has no fields"
  | viewFieldsKind view => s!"view {quoted view}: fields must be a non-empty object"
  | viewFieldPath view field entity =>
    s!"view {quoted view}: field {quoted field} must reference a field of {quoted entity} directly"
  | viewUnknownField view field ref entity =>
    s!"view {quoted view}: field {quoted field} references unknown field {quoted ref} on " ++
      quoted entity
  | viewListField view field ref =>
    s!"view {quoted view}: field {quoted field} cannot expose list field {quoted ref}"
  | viewFormula view field source error =>
    s!"view {quoted view}: field {quoted field} has invalid expression {quoted source}: " ++
      error.message
  | viewTyping view field error =>
    s!"view {quoted view}: field {quoted field}: {error.message}"
  | viewFieldKind view field got =>
    s!"view {quoted view}: field {quoted field} must be a field name or an expression string, " ++
      "got " ++ got
  | triggerMissing workflow => s!"workflow {quoted workflow} has no trigger"
  | triggerEmpty workflow => s!"workflow {quoted workflow} has an empty trigger"
  | triggerKind workflow got =>
    s!"workflow {quoted workflow}: trigger must be an event name, got {got}"
  | stepsMissing workflow => s!"workflow {quoted workflow} has no steps"
  | inputPath workflow action key path =>
    s!"workflow {quoted workflow} step {action}: {key} must start with trigger, got {path}"
  | inputCall workflow action key =>
    s!"workflow {quoted workflow} step {action}: {key} cannot be a function call"
  | nameCollision what space ident by_ =>
    s!"{what} generates {space} {quoted ident}, already produced by {by_}; rename one of them"
  | pageNameTaken page =>
    s!"page {quoted page} clashes with a name declared by the generated routes module; " ++
      "rename the page"
  | componentNameTaken page component =>
    s!"page {quoted page}: component {quoted component} clashes with the generated page " ++
      "function " ++ quoted (page ++ "Page")

end Violation

/-- The block that a violation belongs to. -/
structure Site where
  file : String
  block : Block
  name : String
  deriving DecidableEq, Repr

structure Diagnostic where
  site : Site
  pos : Pos
  violation : Violation
  deriving Repr

namespace Diagnostic

def message (d : Diagnostic) : String :=
  s!"{d.pos.located d.site.file}: {d.violation.message} [{d.violation.code}]"

/-- Files in order, and positions within a file. -/
def before (a b : Diagnostic) : Bool :=
  if a.site.file = b.site.file then a.pos.offset ≤ b.pos.offset else a.site.file < b.site.file

/-- Diagnostics in the order of a report; those at one position keep their order. -/
def sorted (ds : List Diagnostic) : List Diagnostic := ds.mergeSort before

/-- The text of a report. -/
def report : List Diagnostic → String
  | [d] => d.message
  | ds => s!"{ds.length} semantic errors:" ++ String.join (ds.map fun d => "\n  " ++ d.message)

end Diagnostic

end Scaffold.Check
