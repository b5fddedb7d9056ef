import BusCompliance.FileTree
import BusCompliance.Text.Hex
import BusCompliance.Value.Type

/-!
# Errors

Every way an operation can fail, as a cause. `Error.kind` sorts causes into the kinds that callers
act on, and `Error.message` is the only place that words them.
-/

namespace BusCompliance

inductive ErrorKind
  | configuration
  | unknownSchema
  | compliance
  | conversion
  | fieldNotFound
  | exhausted
  | invalidArgument
  | parse
deriving DecidableEq, Repr

/-- Why a version of the specification cannot be had from a source. -/
inductive VersionFault
  | notEmbedded
  | noFolder (path : String)
deriving DecidableEq, Repr

/-- The part of a JSON document that has the wrong shape. -/
inductive JsonPart
  | document
  | message
  | field
  | name
  | type
  | bits
  | value
  | kind
  | subject
deriving DecidableEq, Repr

inductive Error
  /-- A cause that a caller states in its own words. -/
  | stated (kind : ErrorKind) (reason : String)
  -- configuration
  | levelOutOfRange (level : Nat)
  | undeducibleKind (id : String)
  | invalidVersion (text : String)
  | unreadableConfig (path : String) (fault : FileFault)
  | malformedConfig
  | unsupportedVersion (version : Nat) (fault : VersionFault)
  | unreadableSchemaFile (path : String) (fault : FileFault)
  | malformedDirectory
  | malformedDocument (name : String)
  | undeclaredType (field type : String)
  | emptyTypeList (field : String)
  | childrenOutsideControl (field : String)
  | invalidDefault (field : String) (cause : Error)
  | literalWithFields (element : String)
  | missingLevel (level : Nat)
  | missingLevelHeader (level : Nat)
  | unknownLevel (document level : String)
  | duplicateSchema (id : String) (level : Nat)
  | unlistedDocument (document id : String) (level : Nat)
  | missingTemplate (id : String) (level : Nat)
  | missingHeaderTemplate (level : Nat)
  -- lookups
  | unknownSchema (id : String)
  | fieldNotFound (name : String)
  | fieldsExhausted
  | idsExhausted
  -- conversions
  | notNumeric (target : ValueType)
  | notBoolean
  | unreadableValue (text : String) (type : ValueType)
  | unreadableBytes (text : String) (fault : Hex.Fault)
  | invalidBits (bits : String) (type : ValueType)
  -- arguments
  | blankFieldName
  | blankSubject
  | blankSchemaId
  | notAssignment (text : String)
  | unreadableFile (path : String) (fault : FileFault)
  -- documents
  | unknownType (name : String)
  | unknownKind (name : String)
  | unknownFormat
  | malformedXml
  | nestedMessage
  | nestedField
  | unexpectedElement (name : String)
  | unbalancedField
  | unterminatedField
  | attributeMissingName
  | attributeMissingType (field : String)
  | notOneField
  | noMessageElement
  | malformedJson
  | notScalar (part : JsonPart)
  | notObject (part : JsonPart)
  | memberMissingName
  | memberMissingType (field : String)
  | noMessageObject
deriving DecidableEq, Repr

/-! ## Kinds -/

def Error.kind : Error → ErrorKind
  | .stated kind _ => kind
  | .unknownSchema _ => .unknownSchema
  | .fieldNotFound _ => .fieldNotFound
  | .fieldsExhausted | .idsExhausted => .exhausted
  | .notNumeric _ | .notBoolean | .unreadableValue .. | .unreadableBytes .. | .invalidBits .. =>
    .conversion
  | .blankFieldName | .blankSubject | .blankSchemaId | .notAssignment _ | .unreadableFile .. =>
    .invalidArgument
  | .unknownType _ | .unknownKind _ | .unknownFormat | .malformedXml | .nestedMessage
  | .nestedField | .unexpectedElement _ | .unbalancedField | .unterminatedField
  | .attributeMissingName | .attributeMissingType _ | .notOneField | .noMessageElement
  | .malformedJson | .notScalar _ | .notObject _ | .memberMissingName | .memberMissingType _
  | .noMessageObject => .parse
  | .levelOutOfRange _ | .undeducibleKind _ | .invalidVersion _ | .unreadableConfig ..
  | .malformedConfig | .unsupportedVersion .. | .unreadableSchemaFile .. | .malformedDirectory
  | .malformedDocument _ | .undeclaredType .. | .emptyTypeList _ | .childrenOutsideControl _
  | .invalidDefault .. | .literalWithFields _ | .missingLevel _ | .missingLevelHeader _
  | .unknownLevel .. | .duplicateSchema .. | .unlistedDocument .. | .missingTemplate ..
  | .missingHeaderTemplate _ => .configuration

/-! ## Wording -/

def VersionFault.message : VersionFault → String
  | .notEmbedded => "embedded specification provides 2019.00 only"
  | .noFolder path => s!"'{path}' not found"

def JsonPart.key : JsonPart → String
  | .document => "document"
  | .message => "MESSAGE"
  | .field => "FIELD"
  | .name => "NAME"
  | .type => "TYPE"
  | .bits => "BITS"
  | .value => "VALUE"
  | .kind => "KIND"
  | .subject => "SUBJECT"

/-- What a message of the kind starts with. -/
def ErrorKind.lead : ErrorKind → String
  | .configuration => "configuration error: "
  | .parse => "parse error: "
  | _ => ""

/-- The wording of a cause, and the lead of its kind. -/
def Error.message (e : Error) : String :=
  e.kind.lead ++ match e with
  | .stated _ reason => reason
  | .levelOutOfRange level => s!"schema level {level} is out of range 0..=6"
  | .undeducibleKind id => s!"unable to deduce message kind from schema id \"{id}\""
  | .invalidVersion text => s!"invalid specification version \"{text}\""
  | .unreadableConfig path fault => s!"failed to read engine config '{path}': {fault.message}"
  | .malformedConfig => "failed to parse engine config TOML:"
  | .unsupportedVersion version fault =>
    s!"unsupported specification version {version}: {fault.message}"
  | .unreadableSchemaFile path fault => s!"failed to read schema file '{path}': {fault.message}"
  | .malformedDirectory => "failed to parse DIRECTORY:"
  | .malformedDocument name => s!"failed to parse schema document '{name}':"
  | .undeclaredType field type => s!"field \"{field}\" declares unknown type \"{type}\""
  | .emptyTypeList field => s!"field \"{field}\" declares an empty type list"
  | .childrenOutsideControl field =>
    s!"field \"{field}\" declares children but is not a CONTROL field"
  | .invalidDefault field cause => s!"invalid default for field \"{field}\": {cause.message}"
  | .literalWithFields element =>
    s!"subject element \"{element}\" declares both a literal and fields"
  | .missingLevel level => s!"DIRECTORY is missing definition for LEVEL-{level}"
  | .missingLevelHeader level => s!"DIRECTORY is missing definition for LEVEL-{level} HEADER"
  | .unknownLevel document level =>
    s!"schema document '{document}' names unknown level \"{level}\""
  | .duplicateSchema id level => s!"duplicate definition of schema \"{id}\" at LEVEL-{level}"
  | .unlistedDocument document id level =>
    s!"schema document '{document}' has no DIRECTORY entry for \"{id}\" at LEVEL-{level}"
  | .missingTemplate id level => s!"missing template for \"{id}\" at LEVEL-{level}"
  | .missingHeaderTemplate level => s!"missing template for LEVEL-{level} HEADER"
  | .unknownSchema id => s!"SchemaID \"{id}\" could not be found in list of available schema."
  | .fieldNotFound name => s!"Message does not contain field with name: {name}"
  | .fieldsExhausted => "No more fields to iterate over"
  | .idsExhausted => "next() has reached end of list"
  | .notNumeric target => s!"Field cannot be converted to a GMSEC_{target.name}"
  | .notBoolean => "Field cannot be represented as a boolean"
  | .unreadableValue text type => s!"Unable to convert \"{text}\" to a {type.name} value"
  | .unreadableBytes text fault =>
    s!"Unable to convert \"{text}\" to a BIN value: {fault.message}"
  | .invalidBits bits type => s!"Invalid BITS value \"{bits}\" for {type.name}"
  | .blankFieldName => "Field name cannot be NULL, nor an empty string"
  | .blankSubject => "Subject cannot be NULL, nor an empty string"
  | .blankSchemaId => "SchemaID cannot be NULL, nor be an empty string"
  | .notAssignment text => s!"expected NAME=VALUE, got \"{text}\""
  | .unreadableFile path fault => s!"failed to read '{path}': {fault.message}"
  | .unknownType name => s!"unknown field type '{name}'"
  | .unknownKind name => s!"unknown message kind '{name}'"
  | .unknownFormat => "Unable to determine data type (XML or JSON)"
  | .malformedXml => "invalid XML:"
  | .nestedMessage => "nested MESSAGE element"
  | .nestedField => "nested FIELD element"
  | .unexpectedElement name => s!"unexpected element <{name}>"
  | .unbalancedField => "unbalanced </FIELD>"
  | .unterminatedField => "unterminated FIELD element"
  | .attributeMissingName => "FIELD element is missing the NAME attribute"
  | .attributeMissingType field => s!"FIELD \"{field}\" is missing the TYPE attribute"
  | .notOneField => "expected exactly one FIELD element"
  | .noMessageElement => "document has no MESSAGE element"
  | .malformedJson => "invalid JSON:"
  | .notScalar part => s!"{part.key} must be a scalar value"
  | .notObject part => s!"{part.key} must be a JSON object"
  | .memberMissingName => "FIELD object is missing NAME"
  | .memberMissingType field => s!"FIELD \"{field}\" is missing TYPE"
  | .noMessageObject => "document has no MESSAGE object"

end BusCompliance
