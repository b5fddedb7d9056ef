import BusCompliance.Compliance.Violation

/-!
# Checking subjects

The tokens of a subject against the elements of a template, from left to right.
-/

namespace BusCompliance

/-- What is wrong with a token by the rule of its element. A field that is absent is no matter of
the subject. -/
def TokenRule.fault? (m : Message) (element token : String) : TokenRule → Option SubjectFault
  | .literal text => if token = text then none else some (.wrongLiteral element text token)
  | .field names =>
    match Template.boundField? m names with
    | none => none
    | some f =>
      if token = f.text ∨ token = Text.upper f.text then none
      else some (.otherValue element token f.name f.text)
  | .variable values =>
    if values.isEmpty ∨ values.contains token then none else some (.unlisted element token values)

/-- What is wrong with the token of an element. An optional element may be filled. -/
def SubjectElement.fault? (m : Message) (e : SubjectElement) (token : String) :
    Option SubjectFault :=
  if token.isEmpty then some (.emptyToken e.name)
  else if !token.toList.all isHeaderChar then some (.badCharacters e.name token)
  else if token = fillToken ∧ e.optional then none
  else e.rule.fault? m e.name token

/-- The first fault of tokens. Only optional elements may be left without one. -/
def tokensFault? (m : Message) : List SubjectElement → List String → Option SubjectFault
  | [], [] => none
  | [], token :: _ => some (.extra token)
  | e :: es, [] => if e.optional then tokensFault? m es [] else some (.missing e.name)
  | e :: es, token :: tokens =>
    match e.fault? m token with
    | some fault => some fault
    | none => tokensFault? m es tokens

/-- The first fault of a subject. A template without elements asks nothing of it. -/
def subjectFault? (m : Message) (elements : List SubjectElement) (subject : String) :
    Option SubjectFault :=
  if elements.isEmpty then none
  else if (Text.splitMark "..".toList subject.toList).isSome then some .doubleDot
  else tokensFault? m elements (Text.segments subject)

end BusCompliance
