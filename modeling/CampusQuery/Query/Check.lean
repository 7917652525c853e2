/-
CampusQuery/Query/Check.lean

From a JSON document to a query, or to the first fault in it.

The clauses are checked in the order TRANSFORMATIONS, OPTIONS, WHERE.  The first key
on that way fixes the dataset of the query (`bindTo`); a key of another dataset is
refused from then on.  What datasets exist is asked for that first id only.
-/
import CampusQuery.Query.Basic
import CampusQuery.Query.Error
import CampusQuery.Text.Blank

namespace CampusQuery.Query

/-- The dataset that the keys read so far have fixed. -/
abbrev Target := Option (String × Kind)

/-- A check that carries the target along and stops at the first fault. -/
abbrev Check := StateT Target (Except QueryError)

/-- Stops because of the document's structure. -/
def malformed {α : Type} (fault : DocumentFault) : Check α := throw (.malformed fault)

/-! ### Keys -/

/-- Fixes the dataset of the query, or makes sure that it is the one fixed before,
and gives its kind.  `kinds` tells which datasets there are. -/
def bindTo (kinds : String → Option Kind) (id : String) : Check Kind := fun target =>
  match target with
  | some (first, kind) =>
    if first = id then .ok (kind, target) else .error (.multipleDatasets first id)
  | none =>
    match kinds id with
    | some kind => .ok (kind, some (id, kind))
    | none => .error (.unknownDataset id)

/-- The field that a key in the given clause denotes. -/
def resolve (kinds : String → Option Kind) (clause key : String) : Check Field :=
  match QualifiedKey.ofText? key with
  | none => throw (.invalidKey clause key)
  | some parts => do
    let kind ← bindTo kinds parts.dataset
    match Field.ofName? kind parts.field with
    | some field => return field
    | none => throw (.invalidKey clause key)

/-! ### TRANSFORMATIONS -/

/-- Reads the keys of GROUP. -/
def readGroup (kinds : String → Option Kind) : List Json → Check (List GroupKey)
  | [] => return []
  | .text key :: rest => do
    let field ← resolve kinds "GROUP" key
    return ⟨key, field⟩ :: (← readGroup kinds rest)
  | _ :: _ => malformed .groupKeyNotText

/-- Refuses a name for an aggregate that is taken, has an underscore or is blank. -/
def checkRuleName (taken : List String) (name : String) : Except QueryError Unit :=
  if taken.contains name then .error (.duplicateApply name)
  else if name.toList.contains '_' then .error (.malformed (.ruleNameUnderscore name))
  else if Text.allBlank name then .error (.malformed .ruleNameBlank)
  else .ok ()

/-- Reads one rule of APPLY; `taken` holds the names used before it. -/
def readRule (kinds : String → Option Kind) (taken : List String) : Json → Check ApplyRule
  | .object [(name, body)] => do
    checkRuleName taken name
    match body with
    | .object [(token, target)] =>
      match Aggregate.ofToken? token with
      | none => malformed (.tokenUnknown token)
      | some aggregate =>
        match target with
        | .text key => do
          let field ← resolve kinds "APPLY" key
          if aggregate.needsNumbers && !field.isNumeric then
            throw (.typeMismatch (.needsNumbers aggregate.token key))
          return ⟨name, aggregate, field⟩
        | _ => malformed .targetNotText
    | .object _ => malformed .tokenNotSingle
    | _ => malformed .tokenNotObject
  | .object _ => malformed .ruleNotSingle
  | _ => malformed .ruleNotObject

/-- Reads the rules of APPLY. -/
def readRules (kinds : String → Option Kind) : List String → List Json → Check (List ApplyRule)
  | _, [] => return []
  | taken, rule :: rest => do
    let rule ← readRule kinds taken rule
    return rule :: (← readRules kinds (rule.name :: taken) rest)

/-- Reads the object of TRANSFORMATIONS. -/
def readTransformation (kinds : String → Option Kind) (t : Json) : Check Transformation := do
  let .object members := t | malformed .transformationsNotObject
  match t.getNonNull? "GROUP", t.getNonNull? "APPLY" with
  | some group, some apply =>
    if members.length ≠ 2 then malformed .transformationsExcess
    else
      match group with
      | .array (first :: rest) => do
        let group ← readGroup kinds (first :: rest)
        match apply with
        | .array rules => return ⟨group, ← readRules kinds (group.map GroupKey.key) rules⟩
        | _ => malformed .applyNotList
      | _ => malformed .groupNotList
  | _, _ => malformed .groupOrApplyMissing

/-! ### OPTIONS -/

/-- The names that the columns of a grouped query may use. -/
def columnNames (t : Transformation) : List String :=
  t.group.map GroupKey.key ++ t.apply.map ApplyRule.name

/-- The clause that an error names for a column of a grouped query. -/
def groupedColumnsClause : String := "COLUMNS (must be a GROUP key or APPLY name)"

/-- Reads the keys of COLUMNS; in a grouped query they are names of its
transformation. -/
def readColumns (kinds : String → Option Kind) (t : Option Transformation) :
    List Json → Check (List Column)
  | [] => return []
  | .text key :: rest => do
    let column : Column ← match t with
      | some t =>
        if (columnNames t).contains key then pure ⟨key, none⟩
        else throw (.invalidKey groupedColumnsClause key)
      | none => do
        let field ← resolve kinds "COLUMNS" key
        pure ⟨key, some field⟩
    return column :: (← readColumns kinds t rest)
  | _ :: _ => malformed .columnNotText

/-- A key of ORDER must be one of the columns. -/
def checkOrderKey (columns : List Column) (key : String) : Except QueryError String :=
  if columns.any (·.key == key) then .ok key else .error (.invalidOrder (.keyNotColumn key))

/-- Reads the keys of an ORDER object. -/
def readOrderKeys (columns : List Column) : List Json → Except QueryError (List String)
  | [] => return []
  | .text key :: rest => do
    let key ← checkOrderKey columns key
    return key :: (← readOrderKeys columns rest)
  | _ :: _ => throw (.invalidOrder .keyNotText)

/-- Reads ORDER: the key to sort by upwards, or an object with direction and keys. -/
def readOrder (columns : List Column) : Json → Except QueryError Order
  | .text key => do
    let key ← checkOrderKey columns key
    return ⟨.up, [key]⟩
  | .object members =>
    match (Json.object members).getNonNull? "dir", (Json.object members).getNonNull? "keys" with
    | some dir, some keys =>
      if members.length ≠ 2 then throw (.invalidOrder .excess)
      else
        match dir.text?.bind Direction.ofName? with
        | none => throw (.invalidOrder .badDirection)
        | some direction =>
          match keys with
          | .array (first :: rest) => do
            return ⟨direction, ← readOrderKeys columns (first :: rest)⟩
          | _ => throw (.invalidOrder .keysNotList)
    | _, _ => throw (.invalidOrder .dirOrKeysMissing)
  | _ => throw (.invalidOrder .badType)

/-- Reads the object of OPTIONS. -/
def readOptions (kinds : String → Option Kind) (t : Option Transformation)
    (members : List (String × Json)) : Check (List Column × Option Order) := do
  let options := Json.object members
  match options.getNonNull? "COLUMNS" with
  | none => malformed .columnsMissing
  | some columns =>
    let order := options.get? "ORDER"
    if members.length ≠ (if order.isSome then 2 else 1) then malformed .optionsExcess
    else
      match columns with
      | .array (first :: rest) => do
        let columns ← readColumns kinds t (first :: rest)
        match order with
        | none => return (columns, none)
        | some order => do
          let order ← readOrder columns order
          return (columns, some order)
      | _ => malformed .columnsNotList

/-! ### WHERE -/

/-- The only member of a comparison's body. -/
def singleEntry (tag : String) : Json → Check (String × Json)
  | .object [entry] => return entry
  | .object _ => malformed (.comparisonNotSingle tag)
  | _ => malformed (.comparisonNotObject tag)

/-- Reads a comparison of a numeric field with a number. -/
def readComparison (kinds : String → Option Kind) (relation : Comparison) (body : Json) :
    Check Filter := do
  let (key, value) ← singleEntry relation.tag body
  let field ← resolve kinds relation.tag key
  if !field.isNumeric then throw (.typeMismatch (.needsNumbers relation.tag key))
  match value.binary64? with
  | some bound => return .compare relation field bound
  | none => throw (.typeMismatch (.notNumber relation.tag))

/-- Reads a comparison of a text field with a pattern. -/
def readPattern (kinds : String → Option Kind) (body : Json) : Check Filter := do
  let (key, value) ← singleEntry "IS" body
  let field ← resolve kinds "IS" key
  if field.isNumeric then throw (.typeMismatch (.needsTexts key))
  match value.text? with
  | some pattern => return .like field pattern
  | none => throw (.typeMismatch .notText)

mutual

/-- Reads a filter from the members of its object. -/
def readFilter (kinds : String → Option Kind) : List (String × Json) → Check Filter
  | [(tag, body)] =>
    if tag = "AND" then
      match body with
      | .array (first :: rest) => return .and (← readParts kinds tag (first :: rest))
      | _ => malformed (.listEmpty tag)
    else if tag = "OR" then
      match body with
      | .array (first :: rest) => return .or (← readParts kinds tag (first :: rest))
      | _ => malformed (.listEmpty tag)
    else if tag = "NOT" then
      match body with
      | .object members => return .not (← readFilter kinds members)
      | _ => malformed .notNotObject
    else if tag = "IS" then readPattern kinds body
    else
      match Comparison.ofTag? tag with
      | some relation => readComparison kinds relation body
      | none => malformed (.filterUnknown tag)
  | _ => malformed .filterNotSingle

/-- Reads the parts of a conjunction or disjunction. -/
def readParts (kinds : String → Option Kind) (tag : String) : List Json → Check (List Filter)
  | [] => return []
  | .object members :: rest => do
    let part ← readFilter kinds members
    return part :: (← readParts kinds tag rest)
  | _ :: _ => malformed (.childNotObject tag)

end

/-! ### Documents -/

/-- The clauses that a query may have. -/
def clauses : List String := ["WHERE", "OPTIONS", "TRANSFORMATIONS"]

/-- Reads TRANSFORMATIONS, if there is one. -/
def readTransformations (kinds : String → Option Kind) :
    Option Json → Check (Option Transformation)
  | none => return none
  | some t => return some (← readTransformation kinds t)

/-- Reads the members of WHERE; an empty one is no filter. -/
def readWhere (kinds : String → Option Kind) (members : List (String × Json)) :
    Check (Option Filter) := do
  if members.isEmpty then return none
  return some (← readFilter kinds members)

/-- Reads the clauses of a query whose WHERE and OPTIONS are objects. -/
def readClauses (kinds : String → Option Kind) (transformations : Option Json)
    (options filter : List (String × Json)) : Check Query := do
  let transformation ← readTransformations kinds transformations
  let (columns, order) ← readOptions kinds transformation options
  let filter ← readWhere kinds filter
  match ← get with
  | some (dataset, kind) => return ⟨dataset, kind, filter, columns, order, transformation⟩
  | none => malformed .noDataset

/-- Reads a query document. -/
def read (kinds : String → Option Kind) (document : Json) : Check Query :=
  match document with
  | .object members =>
    match document.getNonNull? "WHERE", document.getNonNull? "OPTIONS" with
    | some filter, some options =>
      if members.any fun m => !clauses.contains m.1 then malformed .queryExcess
      else
        match filter, options with
        | .object filter, .object options =>
          readClauses kinds (document.get? "TRANSFORMATIONS") options filter
        | .object _, _ => malformed .optionsNotObject
        | _, _ => malformed .whereNotObject
    | _, _ => malformed .clauseMissing
  | _ => malformed .queryNotObject

/-- The query that a document is, where `kinds` tells which datasets there are. -/
def ofJson (kinds : String → Option Kind) (document : Json) : Except QueryError Query :=
  (read kinds document).run' none

end CampusQuery.Query
