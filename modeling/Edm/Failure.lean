import Edm.Literal

/-!
This module contains the ways in which an operation of the service can fail, as causes, and their
wording.
-/

namespace Edm

inductive Missing where
  | entitySet (name : String)
  | entitySetOfType (type : String)
  | entitySetOfShape (shape : String)
  | complexType (name : String)
  | complexTypeOfShape (shape : String)
  | property (name type : String)
  | entity (set key : String)
  | field (name recordType : String)
  | rawField (name : String)
deriving DecidableEq, Repr

def Missing.message : Missing → String
  | .entitySet name => s!"entity set {name}"
  | .entitySetOfType type => s!"entity set for type {type}"
  | .entitySetOfShape shape => s!"no entity set for {shape}"
  | .complexType name => s!"complex type {name}"
  | .complexTypeOfShape shape => s!"no complex type for {shape}"
  | .property name type => s!"property {name} of {type}"
  | .entity set key => set ++ key
  | .field name recordType => s!"no field {name} on {recordType}"
  | .rawField name => s!"no raw field {name}"

/-- The changes and reads that a service over read-only sources refuses. -/
inductive ReadOnlyAction where
  | createEntity
  | updateEntity
  | mergeEntity
  | deleteEntity
  | readLinks
  | createLink
  | updateLink
  | deleteLink
deriving DecidableEq, Repr

def ReadOnlyAction.all : List ReadOnlyAction :=
  [.createEntity, .updateEntity, .mergeEntity, .deleteEntity, .readLinks, .createLink, .updateLink,
    .deleteLink]

def ReadOnlyAction.message : ReadOnlyAction → String
  | .createEntity => "create entity in"
  | .updateEntity => "update entity in"
  | .mergeEntity => "merge entity in"
  | .deleteEntity => "delete entity from"
  | .readLinks => "read links of"
  | .createLink => "create link in"
  | .updateLink => "update link in"
  | .deleteLink => "delete link in"

inductive Unsupported where
  | inlineCount
  | skipToken
  | navigation (type property : String)
  | readOnly (action : ReadOnlyAction) (set : String)
  | navigationCount (set : String)
  | function (name : String)
deriving DecidableEq, Repr

def Unsupported.message : Unsupported → String
  | .inlineCount => "inline count on a count request"
  | .skipToken => "skip token on a count request"
  | .navigation type property => s!"navigating to {type} property {property}"
  | .readOnly action set => s!"cannot {action.message} read-only entity set {set}"
  | .navigationCount set => s!"navigation counts on {set}"
  | .function name => s!"function {name}"

inductive BadRecord where
  | foreign (recordType : String)
  | foreignKey (recordType : String)
  | foreignRaw
  | collectionField (field : String)
  | singleField (field : String)
  | rawCollection (field : String)
  | rawSingle (field : String)
  | notConvertible (value target : String)
  | wrongRecord (shape target : String)
  | notNested (value : String)
  | notComplex (field value : String)
  | nullItem (field : String)
  | notComplexItem (field value : String)
  | notEntity (field value : String)
  | notSimple (field : String)
  | misfit (property type : String)
  | notRecordField (field : String)
  | tooDeep
  | unknownStatus (name : String)
  | unknownRating (name : String)
  | unknownMember (name : String)
  | refused (text : String)
deriving DecidableEq, Repr

def BadRecord.message : BadRecord → String
  | .foreign recordType => s!"accessor for {recordType} handed a foreign record"
  | .foreignKey recordType => s!"key function for {recordType} handed a foreign record"
  | .foreignRaw => "raw accessor handed a foreign record"
  | .collectionField field => s!"{field} is a collection field"
  | .singleField field => s!"{field} is not a collection field"
  | .rawCollection field => s!"raw {field} is a collection"
  | .rawSingle field => s!"raw {field} is single"
  | .notConvertible value target => s!"cannot convert {value} into {target}"
  | .wrongRecord shape target => s!"record of {shape} is not a {target}"
  | .notNested value => s!"expected a nested record, got {value}"
  | .notComplex field value => s!"{field} should hold a nested record, got {value}"
  | .nullItem field => s!"{field} holds a null complex item"
  | .notComplexItem field value => s!"{field} items should be nested records, got {value}"
  | .notEntity field value => s!"{field} should hold entity records, got {value}"
  | .notSimple field => s!"{field} should hold a simple value"
  | .misfit property type => s!"{property} carries a value that does not fit {type}"
  | .notRecordField field => s!"{field} is not a nested record field"
  | .tooDeep => "complex values are nested too deeply"
  | .unknownStatus name => s!"unknown order status {name}"
  | .unknownRating name => s!"unknown rating {name}"
  | .unknownMember name => s!"unknown member {name}"
  | .refused text => text

inductive BadExpression where
  | notBoolean (filter value : String)
  | negated (value : String)
  | notNegatable (value : String)
  | arity (function : String) (least most given : Nat)
  | arithmetic (lhs op rhs : String)
  | emptyPath
  | notStructured (path segment : String)
  | structured (path : String)
  | noAccessor (path shape : String)
  | missing (path : String) (what : Missing)
  | unreadable (path : String) (cause : BadRecord)
  | incomparable (lhs rhs : String)
  | notTruth (op type : String)
  | notNumeric (type : String)
  | notText (function type : String)
  | notIndex (function value : String)
  | notCalendar (function type : String)
  | noDate (function : String)
  | notNumber (function type : String)
deriving DecidableEq, Repr

def BadExpression.message : BadExpression → String
  | .notBoolean filter value => s!"filter {filter} produced non-boolean {value}"
  | .negated value => s!"not applied to {value}"
  | .notNegatable value => s!"cannot negate {value}"
  | .arity function least most given =>
    s!"{function} takes {least}..={most} arguments, got {given}"
  | .arithmetic lhs op rhs => s!"{lhs} {op} {rhs} overflows or divides by zero"
  | .emptyPath => "empty property path"
  | .notStructured path segment => s!"{path}: {segment} is not a structured value"
  | .structured path => s!"{path} is a structured value"
  | .noAccessor path shape => s!"{path}: no accessor for {shape}"
  | .missing path what => s!"{path}: not found: {what.message}"
  | .unreadable path cause => s!"{path}: invalid record: {cause.message}"
  | .incomparable lhs rhs => s!"cannot compare {lhs} with {rhs}"
  | .notTruth op type => s!"{op} applied to {type}"
  | .notNumeric type => s!"{type} is not numeric"
  | .notText function type => s!"{function} expects a string, got {type}"
  | .notIndex function value => s!"{function} expects a non-negative integer, got {value}"
  | .notCalendar function type => s!"{function} expects a date or time, got {type}"
  | .noDate function => s!"{function} is undefined for a time of day"
  | .notNumber function type => s!"{function} expects a number, got {type}"

inductive BadKey where
  | count (expected given : Nat)
  | null (name : String)
  | nullOf (name set : String)
  | notSimple (name set : String)
  | arity (type : String) (declared given : Nat)
  | nullFor (type : String)
deriving DecidableEq, Repr

def BadKey.message : BadKey → String
  | .count expected given => s!"expected {expected} key values, got {given}"
  | .null name => s!"key {name} is null"
  | .nullOf name set => s!"key {name} of {set} is null"
  | .notSimple name set => s!"key {name} of {set} is not a simple value"
  | .arity type declared given => s!"{type} declares {declared} key fields, key has {given}"
  | .nullFor type => s!"null key value for {type}"

inductive NameSpace where
  | entitySet
  | entityType
  | complexType
deriving DecidableEq, Repr

def NameSpace.label : NameSpace → String
  | .entitySet => "entity set"
  | .entityType => "entity type"
  | .complexType => "complex type"

inductive BadMetadata where
  | nestedCollection
  | entityItems
  | noKey (type : String)
  | unknownKey (key type : String)
  | duplicate (kind : NameSpace) (name : String)
  | taken (set : String)
  | broken
deriving DecidableEq, Repr

def BadMetadata.message : BadMetadata → String
  | .nestedCollection => "collection items cannot be collections"
  | .entityItems => "collection items cannot be entity types"
  | .noKey type => s!"entity type {type} declares no key"
  | .unknownKey key type => s!"key {key} is not a property of {type}"
  | .duplicate kind name => s!"duplicate {kind.label} name {name}"
  | .taken set => s!"entity set {set} or its shape is already registered"
  | .broken => "broken"

/-- An assumption that does not hold, which ends the operation before it has an answer. -/
inductive Panic where
  | inconsistentOrder
  | localTimeOutOfRange
deriving DecidableEq, Repr

def Panic.message : Panic → String
  | .inconsistentOrder =>
    "user-provided comparison function does not correctly implement a total order"
  | .localTimeOutOfRange => "Local time out of range for `NaiveDateTime`"

inductive Failure where
  | codec (fault : Literal.Fault)
  | notFound (what : Missing)
  | unsupported (what : Unsupported)
  | evaluation (cause : BadExpression)
  | missingProperty (name : String)
  | invalidKey (cause : BadKey)
  | invalidMetadata (cause : BadMetadata)
  | invalidRecord (cause : BadRecord)
  | panicked (cause : Panic)
deriving DecidableEq, Repr

namespace Failure

def message : Failure → String
  | .codec fault => s!"codec error: {fault.message}"
  | .notFound what => s!"not found: {what.message}"
  | .unsupported what => s!"unsupported operation: {what.message}"
  | .evaluation cause => s!"evaluation error: {cause.message}"
  | .missingProperty name => s!"missing required property {name}"
  | .invalidKey cause => s!"invalid entity key: {cause.message}"
  | .invalidMetadata cause => s!"invalid metadata: {cause.message}"
  | .invalidRecord cause => s!"invalid record: {cause.message}"
  | .panicked cause => cause.message

def inspectGroup (name label text : String) : String :=
  name ++ " \x7b " ++ label ++ ": " ++ Text.quoted text ++ " \x7d"

def inspect : Failure → String
  | .codec fault => "Codec(" ++ fault.inspect ++ ")"
  | .notFound what => inspectGroup "NotFound" "message" what.message
  | .unsupported what => inspectGroup "UnsupportedOperation" "message" what.message
  | .evaluation cause => inspectGroup "Evaluation" "message" cause.message
  | .missingProperty name => inspectGroup "MissingProperty" "property" name
  | .invalidKey cause => inspectGroup "InvalidKey" "message" cause.message
  | .invalidMetadata cause => inspectGroup "InvalidMetadata" "message" cause.message
  | .invalidRecord cause => inspectGroup "InvalidRecord" "message" cause.message
  | .panicked cause => inspectGroup "Panicked" "message" cause.message

end Failure

end Edm
