import EventBridge.Config.Basic
import EventBridge.Decimal.Form
import EventBridge.Document.Mismatch
import EventBridge.Toml.Report

/-! # Reading a configuration

`Config.parse` takes the settings from a TOML document. Keys that are no settings are passed over,
with whatever they hold.

* The entries of a table are checked in the order of the document, and the first bad one is the one
  reported. Only then is a missing setting, in the order of declaration.
* Where a table of settings is due, an array stands for their values in that order.
-/

namespace EventBridge.Config

open Document (Found Mismatch elements)
open Toml (Value Key Entries Complaint Span)

/-- What a document has at a place, for messages. -/
def found : Value → Found
  | .string _ s => .string s
  | .integer _ n => .integer n
  | .float _ x => .floating (Decimal.plainText x)
  | .boolean _ b => .boolean b
  | .array .. | .tables .. => .sequence
  | .datetime .. | .table .. => .map

/-- A complaint about a value. -/
def refuse {α : Type} (value : Value) (message : String) : Except Complaint α :=
  .error ⟨value.span?, message⟩

/-- A complaint about the type of a value. -/
def wrongType {α : Type} (value : Value) (expected : String) : Except Complaint α :=
  refuse value (Mismatch.invalidType (found value) expected).message

/-! ### Single settings -/

/-- A text; `expected` names the type in messages. -/
def text (expected : String) : Value → Except Complaint String
  | .string _ s => .ok s
  | value => wrongType value expected

/-- A truth value. -/
def switch : Value → Except Complaint Bool
  | .boolean _ b => .ok b
  | value => wrongType value "a boolean"

/-- A number that is not negative; `expected` names the type in messages. -/
def count (expected : String) : Value → Except Complaint Nat
  | .integer span n =>
    if n < 0 then
      refuse (.integer span n) (Mismatch.invalidValue (.integer n) expected).message
    else .ok n.toNat
  | value => wrongType value expected

/-- A policy of a name. -/
def policyNamed (span : Option Span) (name : String) : Except Complaint ErrorPolicy :=
  match ErrorPolicy.ofName? name with
  | some policy => .ok policy
  | none =>
    .error ⟨span, (Mismatch.unknownVariant name (ErrorPolicy.all.map ErrorPolicy.name)).message⟩

/-- What stands under the name of a policy in a table has to be empty. -/
def emptyContent : Value → Except Complaint Unit
  | .table _ _ [] | .tables _ [] | .array _ [] => .ok ()
  | .table span origin (entry :: rest) =>
    refuse (.table span origin (entry :: rest)) "expected empty table"
  | .tables span items => refuse (.tables span items) "expected empty array"
  | .array span items => refuse (.array span items) "expected empty array"
  | value => refuse value ("expected table, found " ++ value.typeName)

/-- A policy: its name, or a table with the name as its only key. -/
def policy : Value → Except Complaint ErrorPolicy
  | .string span name => policyNamed (some span) name
  | .table span origin entries =>
    match entries with
    | [(key, content)] => do
      let policy ← policyNamed (some key.span) key.name
      emptyContent content
      return policy
    | [] => refuse (.table span origin []) "wanted exactly 1 element, found 0 elements"
    | _ => refuse (.table span origin entries) "wanted exactly 1 element, more than 1 element"
  | value => refuse value "wanted string or table"

/-! ### Tables of settings -/

/-- Reads one setting by its key. -/
abbrev Check := Key → Value → Except Complaint Unit

/-- Checks entries in order; a complaint without a place gets that of the key. -/
def checkAll (check : Check) : Entries → Except Complaint Unit
  | [] => .ok ()
  | (key, value) :: rest =>
    match check key value with
    | .ok () => checkAll check rest
    | .error e => .error { e with span := e.span.orElse fun _ => some key.span }

/-- The setting of a key, or its default. -/
def setting {α : Type} (entries : Entries) (name : String) (read : Value → Except Complaint α)
    (default : α) : Except Complaint α :=
  match entries.get? name with
  | some value => read value
  | none => .ok default

/-- The entries that a value stands for where a table of settings is due. -/
def entriesOf (names : List String) (title : String) (value : Value) : Except Complaint Entries :=
  let listed (items : List Value) : Entries :=
    (names.zip items).map fun (name, item) => (⟨name, value.span?.getD ⟨0, 0⟩⟩, item)
  match value with
  | .table _ _ entries => .ok entries
  | .array _ items | .tables _ items => .ok (listed items)
  | .datetime _ => .ok []
  | _ => wrongType value ("struct " ++ title)

namespace Scripting

/-- The settings by name, in the order of declaration. -/
def names : List String :=
  ["script", "namespace", "max_payload_bytes", "max_table_entries", "error_policy", "hot_reload"]

/-- Reads one setting of the script. -/
def check : Check := fun key value =>
  match key.name with
  | "script" => discard (text "path string" value)
  | "namespace" => discard (text "a string" value)
  | "max_payload_bytes" | "max_table_entries" => discard (count "usize" value)
  | "error_policy" => discard (policy value)
  | "hot_reload" => discard (switch value)
  | _ => .ok ()

/-- What is missing where there is no script. -/
def missingScript : Value → Mismatch
  | .array .. | .tables .. =>
    .invalidLength 0 ("struct ScriptingConfig with " ++ elements names.length)
  | _ => .missingField "script"

/-- The settings of a script that a value gives. -/
def ofValue (value : Value) : Except Complaint Scripting := do
  let entries ← entriesOf names "ScriptingConfig" value
  -- In the order of the document, so that the first bad entry is the one reported.
  checkAll check entries
  let script ← match entries.get? "script" with
    | some script => text "path string" script
    | none => refuse value (missingScript value).message
  let base := Scripting.new script
  let namespaceName ← setting entries "namespace" (text "a string") base.namespaceName
  let maxPayloadBytes ← setting entries "max_payload_bytes" (count "usize") base.maxPayloadBytes
  let maxTableEntries ← setting entries "max_table_entries" (count "usize") base.maxTableEntries
  let errorPolicy ← setting entries "error_policy" policy base.errorPolicy
  let hotReload ← setting entries "hot_reload" switch base.hotReload
  return ⟨script, namespaceName, maxPayloadBytes, maxTableEntries, errorPolicy, hotReload⟩

end Scripting

namespace Logging

/-- The settings by name, in the order of declaration. -/
def names : List String := ["level", "file", "dir", "max_file_bytes"]

/-- Reads one setting of the log. -/
def check : Check := fun key value =>
  match key.name with
  | "level" => discard (text "a string" value)
  | "file" => discard (switch value)
  | "dir" => discard (text "path string" value)
  | "max_file_bytes" => discard (count "u64" value)
  | _ => .ok ()

/-- The settings of the log that a value gives. -/
def ofValue (value : Value) : Except Complaint Logging := do
  let entries ← entriesOf names "LoggingConfig" value
  checkAll check entries
  let base := Logging.default
  let level ← setting entries "level" (text "a string") base.level
  let file ← setting entries "file" switch base.file
  let dir ← setting entries "dir" (text "path string") base.dir
  let maxFileBytes ← setting entries "max_file_bytes" (count "u64") base.maxFileBytes
  return ⟨level, file, dir, maxFileBytes⟩

end Logging

/-! ### The document -/

/-- Reads one table of the document. -/
def check : Check := fun key value =>
  match key.name with
  | "scripting" => discard (Scripting.ofValue value)
  | "logging" => discard (Logging.ofValue value)
  | _ => .ok ()

/-- The settings of a document. -/
def ofValue (document : Value) : Except Complaint Config := do
  let entries ← entriesOf ["scripting", "logging"] "CybermonConfig" document
  checkAll check entries
  let scripting ← match entries.get? "scripting" with
    | some value => Scripting.ofValue value
    | none => refuse document (Mismatch.missingField "scripting").message
  let logging ← setting entries "logging" Logging.ofValue Logging.default
  return ⟨scripting, logging⟩

/-- The settings that a text gives. -/
def parse (text : String) : Except Complaint Config :=
  match Toml.parse text with
  | .ok document => ofValue document
  | .error e => .error e.complaint

end EventBridge.Config
