/-
CampusQuery/Query/Error.lean

Why a query document is rejected.

Each cause is a constructor, and the wording of all of them is in the `message`
functions.  A rejection stops at the first fault, so there is always exactly one
cause.
-/

namespace CampusQuery

/-- The document does not have the structure of a query. -/
inductive DocumentFault where
  | queryNotObject
  | clauseMissing
  | queryExcess
  | whereNotObject
  | optionsNotObject
  | transformationsNotObject
  | groupOrApplyMissing
  | transformationsExcess
  | groupNotList
  | groupKeyNotText
  | applyNotList
  | ruleNotObject
  | ruleNotSingle
  | ruleNameUnderscore (name : String)
  | ruleNameBlank
  | tokenNotObject
  | tokenNotSingle
  | tokenUnknown (name : String)
  | targetNotText
  | columnsMissing
  | optionsExcess
  | columnsNotList
  | columnNotText
  | filterNotSingle
  | notNotObject
  | listEmpty (tag : String)
  | childNotObject (tag : String)
  | comparisonNotObject (tag : String)
  | comparisonNotSingle (tag : String)
  | filterUnknown (tag : String)
  | noDataset
deriving DecidableEq

/-- The wording of a fault in the structure. -/
def DocumentFault.message : DocumentFault → String
  | .queryNotObject => "Query must be a JSON object"
  | .clauseMissing => "Missing WHERE or OPTIONS"
  | .queryExcess => "Excess keys in query"
  | .whereNotObject => "WHERE must be an object"
  | .optionsNotObject => "OPTIONS must be an object"
  | .transformationsNotObject => "TRANSFORMATIONS must be an object"
  | .groupOrApplyMissing => "TRANSFORMATIONS missing GROUP or APPLY"
  | .transformationsExcess => "Excess keys in TRANSFORMATIONS"
  | .groupNotList => "GROUP must be a non-empty array"
  | .groupKeyNotText => "GROUP keys must be strings"
  | .applyNotList => "APPLY must be an array"
  | .ruleNotObject => "APPLY rule must be an object"
  | .ruleNotSingle => "APPLY rule must have exactly one key"
  | .ruleNameUnderscore name => s!"APPLY key '{name}' cannot contain an underscore"
  | .ruleNameBlank => "APPLY key cannot be empty"
  | .tokenNotObject => "APPLY token must be an object"
  | .tokenNotSingle => "APPLY token must contain exactly one key"
  | .tokenUnknown name => s!"Invalid APPLY token '{name}'"
  | .targetNotText => "APPLY token target must be a key string"
  | .columnsMissing => "OPTIONS missing COLUMNS"
  | .optionsExcess => "Invalid keys in OPTIONS"
  | .columnsNotList => "COLUMNS must be a non-empty array"
  | .columnNotText => "COLUMNS keys must be strings"
  | .filterNotSingle => "Filter must have exactly one key"
  | .notNotObject => "NOT must be an object"
  | .listEmpty tag => s!"{tag} must be a non-empty array"
  | .childNotObject tag => s!"{tag} children must be objects"
  | .comparisonNotObject tag => s!"{tag} must be an object"
  | .comparisonNotSingle tag => s!"{tag} must contain exactly one entry"
  | .filterUnknown tag => s!"Invalid filter key '{tag}'"
  | .noDataset => "Query references no dataset"

/-- ORDER does not fit the columns or the structure of an order. -/
inductive OrderFault where
  | keyNotColumn (key : String)
  | dirOrKeysMissing
  | excess
  | badDirection
  | keysNotList
  | keyNotText
  | badType
deriving DecidableEq

/-- The wording of a fault in ORDER. -/
def OrderFault.message : OrderFault → String
  | .keyNotColumn key => s!"ORDER key '{key}' must be in COLUMNS"
  | .dirOrKeysMissing => "ORDER missing dir or keys"
  | .excess => "Extra keys in ORDER"
  | .badDirection => "ORDER dir must be UP or DOWN"
  | .keysNotList => "ORDER keys must be a non-empty array"
  | .keyNotText => "ORDER keys must be strings"
  | .badType => "Invalid ORDER type"

/-- A field or a literal has the wrong type for its operator. -/
inductive TypeFault where
  | needsNumbers (operator key : String)
  | needsTexts (key : String)
  | notNumber (tag : String)
  | notText
deriving DecidableEq

/-- The wording of a type fault. -/
def TypeFault.message : TypeFault → String
  | .needsNumbers operator key => s!"{operator} requires a numeric field, got '{key}'"
  | .needsTexts key => s!"IS requires a string field, got '{key}'"
  | .notNumber tag => s!"Invalid value type for {tag}, should be number"
  | .notText => "Invalid value type for IS, should be string"

/-- Why a query is rejected. -/
inductive QueryError where
  | malformed (fault : DocumentFault)
  | unknownDataset (id : String)
  | multipleDatasets (first other : String)
  | invalidKey (clause key : String)
  | typeMismatch (fault : TypeFault)
  | invalidWildcard (pattern : String)
  | invalidOrder (fault : OrderFault)
  | duplicateApply (name : String)
deriving DecidableEq

namespace QueryError

/-- The code of the error. -/
def code : QueryError → String
  | .malformed _ => "CAMPUS_QUERY_INVALID"
  | .unknownDataset _ => "CAMPUS_UNKNOWN_DATASET"
  | .multipleDatasets _ _ => "CAMPUS_MULTIPLE_DATASETS"
  | .invalidKey _ _ => "CAMPUS_INVALID_KEY"
  | .typeMismatch _ => "CAMPUS_TYPE_MISMATCH"
  | .invalidWildcard _ => "CAMPUS_INVALID_WILDCARD"
  | .invalidOrder _ => "CAMPUS_INVALID_ORDER"
  | .duplicateApply _ => "CAMPUS_DUPLICATE_APPLY"

/-- The wording of the error. -/
def message : QueryError → String
  | .malformed fault => fault.message
  | .unknownDataset id => s!"Query references dataset '{id}' which has not been added"
  | .multipleDatasets first other =>
    s!"Cannot query more than one dataset ('{first}' and '{other}')"
  | .invalidKey clause key => s!"Invalid key '{key}' in {clause}"
  | .typeMismatch fault => fault.message
  | .invalidWildcard pattern =>
    s!"Invalid wildcard '{pattern}': asterisks are only allowed as first or last character"
  | .invalidOrder fault => fault.message
  | .duplicateApply name => s!"Duplicate APPLY key '{name}'"

/-- The key at fault, where the error is about one. -/
def key? : QueryError → Option String
  | .invalidKey _ key => some key
  | .duplicateApply name => some name
  | _ => none

/-- The error on one line. -/
def display (e : QueryError) : String := s!"[REJECT] {e.code}: {e.message}"

end QueryError

end CampusQuery
