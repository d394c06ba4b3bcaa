import EventBridge.Log.Line

/-! # Log filters

A filter says how severe a line has to be to be shown, in general or by the part that reports it:
`info`, or `bridge=debug,replay=warn`. Of the directives whose target begins a line's target, the
one with the longest target decides; a line that none covers is not shown.
-/

namespace EventBridge.Log

/-- A part of a filter. -/
structure Directive where
  /-- The beginning of the targets it covers; empty for all. -/
  target : String
  /-- The least severe level shown; `none` for nothing. -/
  level : Option Level
  deriving DecidableEq, Repr

/-- A filter, by its directives. -/
abbrev Filter := List Directive

namespace Filter

/-- A text with its ASCII letters in lower case. -/
def asciiLower (text : String) : String := text.map Char.toLower

/-- The level of a name or a number; `off` and `0` are no level. -/
def level? (text : String) : Option (Option Level) :=
  match asciiLower text with
  | "off" | "0" => some none
  | "error" | "1" | "" => some (some .error)
  | "warn" | "2" => some (some .warn)
  | "info" | "3" => some (some .info)
  | "debug" | "4" => some (some .debug)
  | "trace" | "5" => some (some .trace)
  | _ => none

/-- Whether a target may start with a character. -/
def startsTarget (c : Char) : Bool :=
  c.isAlphanum || c == '-' || c == ':' || c == '_' || 0x80 ≤ c.toNat

/-- A directive: a level, a target with a level, or a target alone. -/
def directive? (text : String) : Option Directive :=
  match text.toList with
  | [] => none
  | c :: _ =>
    if !startsTarget c then none
    else match text.splitOn "=" with
      | [one] =>
        match level? one with
        | some level => some ⟨"", level⟩
        | none => some ⟨one, some .trace⟩
      | [target, level] => (level? level).map fun level => ⟨target, level⟩
      | _ => none

/-- Adds a directive in place of one for the same target. -/
def add (filter : Filter) (directive : Directive) : Filter :=
  filter.filter (fun other => other.target != directive.target) ++ [directive]

/-- The filter of a text. Parts that are no directives are left out; without any, errors only are
shown. -/
def parse (text : String) : Filter :=
  match (text.splitOn ",").filterMap directive? with
  | [] => [⟨"", some .error⟩]
  | directives => directives.foldl add []

/-- Whether a directive covers a target. -/
def covers (directive : Directive) (target : String) : Bool :=
  directive.target.toList.isPrefixOf target.toList

/-- The directive that decides about a target. -/
def decisive (filter : Filter) (target : String) : Option Directive :=
  -- Targets are unlike each other, so those of one length do not both cover a line.
  (filter.filter fun directive => covers directive target).foldl (fun best directive =>
    match best with
    | some other => if other.target.length < directive.target.length then some directive else best
    | none => some directive) none

/-- Whether a line is shown. -/
def shows (filter : Filter) (line : Line) : Bool :=
  match (filter.decisive line.target).bind Directive.level with
  | some level => line.level.rank ≤ level.rank
  | none => false

end Filter

end EventBridge.Log
