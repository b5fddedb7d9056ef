/-!
# The 2019.00 edition

The schema documents that the library ships, line by line: the directory, then one document for
each schema at each level.
-/

namespace BusCompliance.Edition2019

/-- The text of a document: its lines with a line feed between each two. -/
def textOf (lines : List String) : String := "\n".intercalate lines

def directory : List String := [
  "# C2MS 2019.00 schema directory.",
  "#",
  "# Levels layer cumulatively: a registry loaded at level N sees levels 0..N,",
  "# with higher-level documents replacing lower-level ones of the same id.",
  "",
  "[[levels]]",
  "level = 0",
  "name = \"C2MS\"",
  "",
  "[[levels]]",
  "level = 1",
  "name = \"C2MS-PIPE\"",
  "",
  "[[levels]]",
  "level = 2",
  "name = \"GMSEC\"",
  "",
  "# ── Level 0: C2MS ────────────────────────────────────────────────────────────",
  "",
  "[[schemas]]",
  "id = \"HEADER\"",
  "level = 0",
  "definition = [\"MESSAGE-TYPE\", \"MESSAGE-SUBTYPE\"]",
  "",
  "[[schemas]]",
  "id = \"MSG.HB\"",
  "level = 0",
  "alias = \"HB\"",
  "",
  "[[schemas]]",
  "id = \"MSG.LOG\"",
  "level = 0",
  "alias = \"LOG\"",
  "",
  "[[schemas]]",
  "id = \"REQ.DIR\"",
  "level = 0",
  "",
  "[[schemas]]",
  "id = \"RESP.DIR\"",
  "level = 0",
  "",
  "# Legacy C2CX messages are identified by a third header field.",
  "[[schemas]]",
  "id = \"MSG.C2CX\"",
  "level = 0",
  "definition = [\"MESSAGE-TYPE\", \"MESSAGE-SUBTYPE\", \"C2CX-SUBTYPE\"]",
  "definition_only = true",
  "",
  "# ── Level 1: C2MS-PIPE ───────────────────────────────────────────────────────",
  "",
  "[[schemas]]",
  "id = \"HEADER\"",
  "level = 1",
  "definition = [\"MESSAGE-TYPE\", \"MESSAGE-SUBTYPE\"]",
  "",
  "[[schemas]]",
  "id = \"MSG.HB\"",
  "level = 1",
  "alias = \"HB\"",
  "",
  "[[schemas]]",
  "id = \"MSG.PIPE\"",
  "level = 1",
  "alias = \"PIPE\"",
  "",
  "# ── Level 2: GMSEC ───────────────────────────────────────────────────────────",
  "",
  "[[schemas]]",
  "id = \"HEADER\"",
  "level = 2",
  "definition = [\"MESSAGE-TYPE\", \"MESSAGE-SUBTYPE\"]",
  "",
  "[[schemas]]",
  "id = \"MSG.DEV\"",
  "level = 2",
  "alias = \"DEV\"",
  ""]

def pipeHeader : List String := [
  "id = \"HEADER\"",
  "level = \"C2MS-PIPE\"",
  "description = \"Pipeline extension of the C2MS header\"",
  "",
  "[[fields]]",
  "name = \"MSG-ID\"",
  "type = \"STRING\"",
  "mode = \"OPTIONAL\"",
  "classification = \"HEADER\"",
  "description = \"Identifier correlating messages of one processing run\"",
  ""]

def pipeHeartbeat : List String := [
  "id = \"MSG.HB\"",
  "level = \"C2MS-PIPE\"",
  "description = \"Heartbeat with resource figures\"",
  "",
  "[[subject]]",
  "name = \"ME1\"",
  "fields = [\"COMPONENT\"]",
  "",
  "[[subject]]",
  "name = \"ME2\"",
  "optional = true",
  "",
  "[[subject]]",
  "name = \"ME3\"",
  "optional = true",
  "",
  "[[fields]]",
  "name = \"CONTENT-VERSION\"",
  "type = \"F32\"",
  "mode = \"REQUIRED\"",
  "classification = \"CONTENT\"",
  "default = \"2019\"",
  "description = \"Version of the message content\"",
  "",
  "[[fields]]",
  "name = \"PUB-RATE\"",
  "type = \"U16\"",
  "mode = \"OPTIONAL\"",
  "classification = \"CONTENT\"",
  "description = \"Seconds between heartbeats\"",
  "",
  "[[fields]]",
  "name = \"COUNTER\"",
  "type = \"U16\"",
  "mode = \"OPTIONAL\"",
  "classification = \"CONTENT\"",
  "description = \"Heartbeat sequence number, rolling over at 65535\"",
  "",
  "[[fields]]",
  "name = \"COMPONENT-STATUS\"",
  "type = \"I16\"",
  "mode = \"OPTIONAL\"",
  "classification = \"CONTENT\"",
  "description = \"0 debug, 1 nominal, 2 yellow, 3 orange, 4 red\"",
  "values = [\"0..4\"]",
  "",
  "[[fields]]",
  "name = \"CPU-MEMORY\"",
  "type = [\"U16\", \"U32\"]",
  "mode = \"OPTIONAL\"",
  "classification = \"CONTENT\"",
  "description = \"Resident memory in megabytes\"",
  "",
  "[[fields]]",
  "name = \"CPU-UTIL\"",
  "type = [\"F32\", \"F64\"]",
  "mode = \"OPTIONAL\"",
  "classification = \"CONTENT\"",
  "description = \"CPU utilisation in percent\"",
  "values = [\"0..100\"]",
  ""]

def pipeStatus : List String := [
  "id = \"MSG.PIPE\"",
  "level = \"C2MS-PIPE\"",
  "description = \"Processing pipeline stage report\"",
  "",
  "[[subject]]",
  "name = \"ME1\"",
  "fields = [\"COMPONENT\"]",
  "",
  "[[subject]]",
  "name = \"ME2\"",
  "fields = [\"PIPELINE-NAME\"]",
  "",
  "[[fields]]",
  "name = \"CONTENT-VERSION\"",
  "type = \"F32\"",
  "mode = \"REQUIRED\"",
  "classification = \"CONTENT\"",
  "default = \"2019\"",
  "description = \"Version of the message content\"",
  "",
  "[[fields]]",
  "name = \"PIPELINE-NAME\"",
  "type = \"STRING\"",
  "mode = \"REQUIRED\"",
  "classification = \"CONTENT\"",
  "description = \"Name of the pipeline\"",
  "",
  "[[fields]]",
  "name = \"STAGE\"",
  "type = \"U16\"",
  "mode = \"REQUIRED\"",
  "classification = \"CONTENT\"",
  "description = \"Stage number that completed\"",
  ""]

def baseHeader : List String := [
  "id = \"HEADER\"",
  "level = \"C2MS\"",
  "description = \"C2MS message header\"",
  "",
  "[[subject]]",
  "name = \"SPECIFICATION\"",
  "fields = [\"SPECIFICATION\"]",
  "",
  "[[subject]]",
  "name = \"DOMAIN1\"",
  "fields = [\"DOMAIN1\"]",
  "",
  "[[subject]]",
  "name = \"DOMAIN2\"",
  "fields = [\"DOMAIN2\"]",
  "",
  "[[subject]]",
  "name = \"MISSION-ID\"",
  "fields = [\"MISSION-ID\"]",
  "",
  "[[subject]]",
  "name = \"CONSTELLATION-ID\"",
  "fields = [\"CONSTELLATION-ID\"]",
  "optional = true",
  "",
  "[[subject]]",
  "name = \"SAT-ID-PHYSICAL\"",
  "fields = [\"SAT-ID-PHYSICAL\"]",
  "optional = true",
  "",
  "[[subject]]",
  "name = \"MESSAGE-TYPE\"",
  "fields = [\"MESSAGE-TYPE\"]",
  "",
  "[[subject]]",
  "name = \"MESSAGE-SUBTYPE\"",
  "fields = [\"MESSAGE-SUBTYPE\"]",
  "",
  "[[fields]]",
  "name = \"SPECIFICATION\"",
  "type = \"STRING\"",
  "mode = \"REQUIRED\"",
  "classification = \"HEADER\"",
  "default = \"C2MS\"",
  "description = \"Interface specification the message conforms to\"",
  "",
  "[[fields]]",
  "name = \"HEADER-VERSION\"",
  "type = \"F32\"",
  "mode = \"REQUIRED\"",
  "classification = \"HEADER\"",
  "default = \"2019\"",
  "description = \"Version of the message header\"",
  "",
  "[[fields]]",
  "name = \"MESSAGE-TYPE\"",
  "type = \"STRING\"",
  "mode = \"REQUIRED\"",
  "classification = \"HEADER\"",
  "description = \"Message type\"",
  "values = [\"MSG\", \"REQ\", \"RESP\"]",
  "",
  "[[fields]]",
  "name = \"MESSAGE-SUBTYPE\"",
  "type = \"STRING\"",
  "mode = \"REQUIRED\"",
  "classification = \"HEADER\"",
  "description = \"Message subtype\"",
  "",
  "[[fields]]",
  "name = \"MISSION-ID\"",
  "type = \"STRING\"",
  "mode = \"REQUIRED\"",
  "classification = \"HEADER\"",
  "description = \"Mission name\"",
  "",
  "[[fields]]",
  "name = \"CONSTELLATION-ID\"",
  "type = \"STRING\"",
  "mode = \"OPTIONAL\"",
  "classification = \"HEADER\"",
  "description = \"Constellation name\"",
  "",
  "[[fields]]",
  "name = \"SAT-ID-PHYSICAL\"",
  "type = \"STRING\"",
  "mode = \"OPTIONAL\"",
  "classification = \"HEADER\"",
  "description = \"Physical spacecraft identifier\"",
  "",
  "[[fields]]",
  "name = \"SAT-ID-LOGICAL\"",
  "type = \"STRING\"",
  "mode = \"OPTIONAL\"",
  "classification = \"HEADER\"",
  "pattern = \"HEADER_STRING\"",
  "description = \"Logical spacecraft identifier\"",
  "",
  "[[fields]]",
  "name = \"FACILITY\"",
  "type = \"STRING\"",
  "mode = \"REQUIRED\"",
  "classification = \"HEADER\"",
  "pattern = \"HEADER_STRING\"",
  "description = \"Facility the component runs at\"",
  "",
  "[[fields]]",
  "name = \"DOMAIN1\"",
  "type = \"STRING\"",
  "mode = \"REQUIRED\"",
  "classification = \"HEADER\"",
  "description = \"First mission-defined domain\"",
  "",
  "[[fields]]",
  "name = \"DOMAIN2\"",
  "type = \"STRING\"",
  "mode = \"REQUIRED\"",
  "classification = \"HEADER\"",
  "description = \"Second mission-defined domain\"",
  "",
  "[[fields]]",
  "name = \"COMPONENT\"",
  "type = \"STRING\"",
  "mode = \"REQUIRED\"",
  "classification = \"HEADER\"",
  "description = \"Name of the publishing component\"",
  ""]

def heartbeat : List String := [
  "id = \"MSG.HB\"",
  "level = \"C2MS\"",
  "description = \"Heartbeat\"",
  "",
  "[[subject]]",
  "name = \"ME1\"",
  "fields = [\"COMPONENT\"]",
  "",
  "[[subject]]",
  "name = \"ME2\"",
  "optional = true",
  "",
  "[[subject]]",
  "name = \"ME3\"",
  "optional = true",
  "",
  "[[fields]]",
  "name = \"CONTENT-VERSION\"",
  "type = \"F32\"",
  "mode = \"REQUIRED\"",
  "classification = \"CONTENT\"",
  "default = \"2019\"",
  "description = \"Version of the message content\"",
  "",
  "[[fields]]",
  "name = \"PUB-RATE\"",
  "type = \"U16\"",
  "mode = \"OPTIONAL\"",
  "classification = \"CONTENT\"",
  "description = \"Seconds between heartbeats\"",
  "",
  "[[fields]]",
  "name = \"COUNTER\"",
  "type = \"U16\"",
  "mode = \"OPTIONAL\"",
  "classification = \"CONTENT\"",
  "description = \"Heartbeat sequence number, rolling over at 65535\"",
  "",
  "[[fields]]",
  "name = \"COMPONENT-STATUS\"",
  "type = \"I16\"",
  "mode = \"OPTIONAL\"",
  "classification = \"CONTENT\"",
  "description = \"0 debug, 1 nominal, 2 yellow, 3 orange, 4 red\"",
  "values = [\"0..4\"]",
  ""]

def logMessage : List String := [
  "id = \"MSG.LOG\"",
  "level = \"C2MS\"",
  "description = \"Log message\"",
  "",
  "[[subject]]",
  "name = \"ME1\"",
  "fields = [\"COMPONENT\"]",
  "",
  "[[subject]]",
  "name = \"ME2\"",
  "fields = [\"SUBCLASS\"]",
  "",
  "[[subject]]",
  "name = \"ME3\"",
  "fields = [\"OCCURRENCE-TYPE\"]",
  "optional = true",
  "",
  "[[subject]]",
  "name = \"ME4\"",
  "fields = [\"SEVERITY\"]",
  "optional = true",
  "",
  "[[fields]]",
  "name = \"CONTENT-VERSION\"",
  "type = \"F32\"",
  "mode = \"REQUIRED\"",
  "classification = \"CONTENT\"",
  "default = \"2019\"",
  "description = \"Version of the message content\"",
  "",
  "[[fields]]",
  "name = \"SUBCLASS\"",
  "type = \"STRING\"",
  "mode = \"REQUIRED\"",
  "classification = \"CONTENT\"",
  "description = \"Category of the log entry\"",
  "",
  "[[fields]]",
  "name = \"OCCURRENCE-TYPE\"",
  "type = \"STRING\"",
  "mode = \"OPTIONAL\"",
  "classification = \"CONTENT\"",
  "description = \"What happened\"",
  "",
  "[[fields]]",
  "name = \"SEVERITY\"",
  "type = \"I16\"",
  "mode = \"REQUIRED\"",
  "classification = \"CONTENT\"",
  "description = \"0 debug through 4 critical\"",
  "values = [\"0..4\"]",
  "",
  "[[fields]]",
  "name = \"MSG-TEXT\"",
  "type = \"STRING\"",
  "mode = \"REQUIRED\"",
  "classification = \"CONTENT\"",
  "description = \"Log text\"",
  "",
  "[[fields]]",
  "name = \"EVENT-TIME\"",
  "type = \"STRING\"",
  "mode = \"OPTIONAL\"",
  "classification = \"CONTENT\"",
  "pattern = \"TIME\"",
  "description = \"YYYY-DDD-HH:MM:SS.sss time of the event\"",
  ""]

def directiveRequest : List String := [
  "id = \"REQ.DIR\"",
  "level = \"C2MS\"",
  "description = \"Directive request\"",
  "",
  "[[subject]]",
  "name = \"ME1\"",
  "fields = [\"DESTINATION-COMPONENT\"]",
  "",
  "[[subject]]",
  "name = \"ME2\"",
  "optional = true",
  "",
  "[[fields]]",
  "name = \"CONTENT-VERSION\"",
  "type = \"F32\"",
  "mode = \"REQUIRED\"",
  "classification = \"CONTENT\"",
  "default = \"2019\"",
  "description = \"Version of the message content\"",
  "",
  "[[fields]]",
  "name = \"DESTINATION-COMPONENT\"",
  "type = \"STRING\"",
  "mode = \"REQUIRED\"",
  "classification = \"CONTENT\"",
  "description = \"Component that should act on the directive\"",
  "",
  "[[fields]]",
  "name = \"DIRECTIVE-STRING\"",
  "type = \"STRING\"",
  "mode = \"REQUIRED\"",
  "classification = \"CONTENT\"",
  "description = \"Directive keyword and arguments\"",
  "",
  "[[fields]]",
  "name = \"RESPONSE\"",
  "type = \"BOOL\"",
  "mode = \"REQUIRED\"",
  "classification = \"CONTENT\"",
  "default = \"true\"",
  "description = \"Whether a directive response is expected\"",
  "",
  "[[fields]]",
  "name = \"NUM-OF-ARGUMENTS\"",
  "type = \"U16\"",
  "mode = \"OPTIONAL\"",
  "classification = \"CONTENT\"",
  "description = \"Number of ARGUMENT.n groups; without it the message carries no arguments\"",
  "",
  "[[fields]]",
  "name = \"ARGUMENTS\"",
  "type = \"VARIABLE\"",
  "mode = \"CONTROL\"",
  "element = \"ARGUMENT\"",
  "classification = \"CONTENT\"",
  "description = \"Directive arguments, ARGUMENT.1 through ARGUMENT.<NUM-OF-ARGUMENTS>\"",
  "",
  "[[fields.children]]",
  "name = \"NAME\"",
  "type = \"STRING\"",
  "mode = \"REQUIRED\"",
  "classification = \"CONTENT\"",
  "description = \"Argument name\"",
  "",
  "[[fields.children]]",
  "name = \"VALUE\"",
  "type = \"VARIABLE\"",
  "mode = \"REQUIRED\"",
  "classification = \"CONTENT\"",
  "description = \"Argument value\"",
  ""]

def directiveResponse : List String := [
  "id = \"RESP.DIR\"",
  "level = \"C2MS\"",
  "description = \"Directive response\"",
  "",
  "[[subject]]",
  "name = \"ME1\"",
  "fields = [\"DESTINATION-COMPONENT\"]",
  "optional = true",
  "",
  "[[subject]]",
  "name = \"ME2\"",
  "fields = [\"RESPONSE-STATUS\"]",
  "optional = true",
  "",
  "[[fields]]",
  "name = \"CONTENT-VERSION\"",
  "type = \"F32\"",
  "mode = \"REQUIRED\"",
  "classification = \"CONTENT\"",
  "default = \"2019\"",
  "description = \"Version of the message content\"",
  "",
  "[[fields]]",
  "name = \"RESPONSE-STATUS\"",
  "type = \"I16\"",
  "mode = \"REQUIRED\"",
  "classification = \"CONTENT\"",
  "description = \"1 acknowledged, 2 working, 3 success, 4 failed, 5 invalid, 6 final\"",
  "values = [\"1..6\"]",
  "",
  "[[fields]]",
  "name = \"DESTINATION-COMPONENT\"",
  "type = \"STRING\"",
  "mode = \"OPTIONAL\"",
  "classification = \"CONTENT\"",
  "description = \"Component that issued the request\"",
  "",
  "[[fields]]",
  "name = \"RETURN-VALUE\"",
  "type = \"VARIABLE\"",
  "mode = \"OPTIONAL\"",
  "classification = \"CONTENT\"",
  "description = \"Directive-specific return value\"",
  "",
  "[[fields]]",
  "name = \"DATA\"",
  "type = \"STRING\"",
  "mode = \"OPTIONAL\"",
  "classification = \"CONTENT\"",
  "description = \"Free-form response text\"",
  ""]

def deviceHeader : List String := [
  "id = \"HEADER\"",
  "level = \"GMSEC\"",
  "description = \"Mission addendum header\"",
  "",
  "[[fields]]",
  "name = \"NODE\"",
  "type = \"STRING\"",
  "mode = \"OPTIONAL\"",
  "classification = \"HEADER\"",
  "description = \"Host the publishing component runs on\"",
  ""]

def device : List String := [
  "id = \"MSG.DEV\"",
  "level = \"GMSEC\"",
  "description = \"Device status\"",
  "",
  "[[subject]]",
  "name = \"ME1\"",
  "fields = [\"COMPONENT\"]",
  "",
  "[[subject]]",
  "name = \"ME2\"",
  "fields = [\"DEVICE-NAME\"]",
  "",
  "[[fields]]",
  "name = \"CONTENT-VERSION\"",
  "type = \"F32\"",
  "mode = \"REQUIRED\"",
  "classification = \"CONTENT\"",
  "default = \"2019\"",
  "description = \"Version of the message content\"",
  "",
  "[[fields]]",
  "name = \"DEVICE-NAME\"",
  "type = \"STRING\"",
  "mode = \"REQUIRED\"",
  "classification = \"CONTENT\"",
  "description = \"Device identifier\"",
  "",
  "[[fields]]",
  "name = \"DEVICE-STATUS\"",
  "type = \"I16\"",
  "mode = \"REQUIRED\"",
  "classification = \"CONTENT\"",
  "description = \"0 debug, 1 nominal, 2 yellow, 3 orange, 4 red\"",
  "values = [\"0..4\"]",
  "",
  "[[fields]]",
  "name = \"DEVICE-ADDRESS\"",
  "type = \"STRING\"",
  "mode = \"OPTIONAL\"",
  "classification = \"CONTENT\"",
  "pattern = \"IP_ADDRESS\"",
  "description = \"Network address of the device\"",
  ""]

/-- The documents beside the directory, in the order of their names. -/
def documents : List (String × List String) := [
  ("C2MS-PIPE_HEADER.toml", pipeHeader),
  ("C2MS-PIPE_MSG.HB.toml", pipeHeartbeat),
  ("C2MS-PIPE_MSG.PIPE.toml", pipeStatus),
  ("C2MS_HEADER.toml", baseHeader),
  ("C2MS_MSG.HB.toml", heartbeat),
  ("C2MS_MSG.LOG.toml", logMessage),
  ("C2MS_REQ.DIR.toml", directiveRequest),
  ("C2MS_RESP.DIR.toml", directiveResponse),
  ("GMSEC_HEADER.toml", deviceHeader),
  ("GMSEC_MSG.DEV.toml", device)]

end BusCompliance.Edition2019
