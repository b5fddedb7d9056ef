import BusCompliance.Error

/-!
# Statuses

The outcome of a validation: nominal, or the first violation found with its class, code and
reason. An error has a status too.
-/

namespace BusCompliance

inductive StatusClass
  | noError
  | msgError
  | fieldError
  | specificationError
  | iteratorError
  | configError
  | argumentError
  | parseError
deriving DecidableEq, Repr

inductive StatusCode
  | noErrorCode
  | messageFailedValidation
  | missingRequiredField
  | incorrectFieldType
  | incorrectFieldValue
  | invalidSubjectName
  | templateIdDoesNotExist
  | invalidFieldValue
  | nonAllowedField
  | fieldNotFound
  | iteratorExhausted
  | invalidConfigValue
  | uninitializedObject
  | malformedInput
  | customValidationFailed
deriving DecidableEq, Repr

/-! ## Names -/

namespace StatusClass

def all : List StatusClass :=
  [.noError, .msgError, .fieldError, .specificationError, .iteratorError, .configError,
    .argumentError, .parseError]

/-- The name in a status text. -/
def label : StatusClass → String
  | .noError => "NoError"
  | .msgError => "MsgError"
  | .fieldError => "FieldError"
  | .specificationError => "SpecificationError"
  | .iteratorError => "IteratorError"
  | .configError => "ConfigError"
  | .argumentError => "ArgumentError"
  | .parseError => "ParseError"

/-- The name in a document. -/
def word : StatusClass → String
  | .noError => "NO_ERROR"
  | .msgError => "MSG_ERROR"
  | .fieldError => "FIELD_ERROR"
  | .specificationError => "SPECIFICATION_ERROR"
  | .iteratorError => "ITERATOR_ERROR"
  | .configError => "CONFIG_ERROR"
  | .argumentError => "ARGUMENT_ERROR"
  | .parseError => "PARSE_ERROR"

end StatusClass

namespace StatusCode

def all : List StatusCode :=
  [.noErrorCode, .messageFailedValidation, .missingRequiredField, .incorrectFieldType,
    .incorrectFieldValue, .invalidSubjectName, .templateIdDoesNotExist, .invalidFieldValue,
    .nonAllowedField, .fieldNotFound, .iteratorExhausted, .invalidConfigValue,
    .uninitializedObject, .malformedInput, .customValidationFailed]

/-- The name in a status text. -/
def label : StatusCode → String
  | .noErrorCode => "NoErrorCode"
  | .messageFailedValidation => "MessageFailedValidation"
  | .missingRequiredField => "MissingRequiredField"
  | .incorrectFieldType => "IncorrectFieldType"
  | .incorrectFieldValue => "IncorrectFieldValue"
  | .invalidSubjectName => "InvalidSubjectName"
  | .templateIdDoesNotExist => "TemplateIdDoesNotExist"
  | .invalidFieldValue => "InvalidFieldValue"
  | .nonAllowedField => "NonAllowedField"
  | .fieldNotFound => "FieldNotFound"
  | .iteratorExhausted => "IteratorExhausted"
  | .invalidConfigValue => "InvalidConfigValue"
  | .uninitializedObject => "UninitializedObject"
  | .malformedInput => "MalformedInput"
  | .customValidationFailed => "CustomValidationFailed"

/-- The name in a document. -/
def word : StatusCode → String
  | .noErrorCode => "NO_ERROR_CODE"
  | .messageFailedValidation => "MESSAGE_FAILED_VALIDATION"
  | .missingRequiredField => "MISSING_REQUIRED_FIELD"
  | .incorrectFieldType => "INCORRECT_FIELD_TYPE"
  | .incorrectFieldValue => "INCORRECT_FIELD_VALUE"
  | .invalidSubjectName => "INVALID_SUBJECT_NAME"
  | .templateIdDoesNotExist => "TEMPLATE_ID_DOES_NOT_EXIST"
  | .invalidFieldValue => "INVALID_FIELD_VALUE"
  | .nonAllowedField => "NON_ALLOWED_FIELD"
  | .fieldNotFound => "FIELD_NOT_FOUND"
  | .iteratorExhausted => "ITERATOR_EXHAUSTED"
  | .invalidConfigValue => "INVALID_CONFIG_VALUE"
  | .uninitializedObject => "UNINITIALIZED_OBJECT"
  | .malformedInput => "MALFORMED_INPUT"
  | .customValidationFailed => "CUSTOM_VALIDATION_FAILED"

end StatusCode

/-! ## Statuses -/

/-- `customCode` is supplied by custom validators and zero otherwise. -/
structure Status where
  cls : StatusClass
  code : StatusCode
  customCode : Int32
  reason : String
deriving DecidableEq

namespace Status

/-- The nominal status. -/
def ok : Status := ⟨.noError, .noErrorCode, 0, ""⟩

instance : Inhabited Status := ⟨ok⟩

def failure (cls : StatusClass) (code : StatusCode) (reason : String) : Status :=
  ⟨cls, code, 0, reason⟩

/-- The status of a custom validator that rejects a message. -/
def custom (reason : String) (code : Int32) : Status :=
  ⟨.msgError, .customValidationFailed, code, reason⟩

/-- Only the class decides whether a status is nominal. -/
def isOk (s : Status) : Bool := s.cls == .noError

def hasError (s : Status) : Bool := !s.isOk

def text (s : Status) : String :=
  if s.isOk then "[NoError]"
  else s!"[{s.cls.label},{s.code.label},{Whole.text s.customCode.toInt}] : {s.reason}"

/-- The class and code of each kind of error, with the error's message as the reason. -/
def ofError (e : Error) : Status :=
  match e.kind with
  | .configuration => failure .configError .invalidConfigValue e.message
  | .unknownSchema => failure .specificationError .templateIdDoesNotExist e.message
  | .compliance => failure .msgError .messageFailedValidation e.message
  | .conversion => failure .fieldError .invalidFieldValue e.message
  | .fieldNotFound => failure .fieldError .fieldNotFound e.message
  | .exhausted => failure .iteratorError .iteratorExhausted e.message
  | .invalidArgument => failure .argumentError .uninitializedObject e.message
  | .parse => failure .parseError .malformedInput e.message

@[simp] theorem isOk_ok : ok.isOk = true := rfl

/-- No error counts as nominal. -/
theorem isOk_ofError (e : Error) : (ofError e).isOk = false := by
  simp only [ofError]
  split <;> rfl

end Status

end BusCompliance
