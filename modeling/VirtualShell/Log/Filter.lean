import VirtualShell.Decimal.Numeral
import VirtualShell.Log.Event
import VirtualShell.Pattern
import VirtualShell.Text.Utf8

/-!
# Which events are logged

A filter is a list of directives, each of which sets a level for the events of some targets, or for
those with some fields. Of the directives that speak of an event the most specific one decides.
Directives can also name spans and values of fields; since the program has no spans, those decide
nothing, but they must be well written.
-/

namespace VirtualShell
namespace Log

/-- The lightest level that is let through, or none at all. -/
abbrev Threshold := Option Level

/-- Whether a threshold lets a level through. -/
def Threshold.admits (threshold : Threshold) (level : Level) : Bool :=
  match threshold with
  | none => false
  | some lightest => level.rank ≤ lightest.rank

/-- Why a text is no directive. -/
inductive DirectiveFault where
  | malformed
  | level
  | pattern (fault : Pattern.Fault)
  deriving DecidableEq, Repr

/-- The words for a fault of a directive. -/
def DirectiveFault.message : DirectiveFault → String
  | .malformed => "invalid filter directive"
  | .level =>
    "error parsing level filter: expected one of \"off\", \"error\", \"warn\", \"info\", " ++
      "\"debug\", \"trace\", or a number 0-5"
  | .pattern fault => "invalid field filter: " ++ fault.message

/-- The threshold that a text names, by number or in letters of either case. -/
def threshold? (s : String) : Option Threshold :=
  match Decimal.natural? s with
  | some 0 => some none
  | some 1 => some (some .error)
  | some 2 => some (some .warn)
  | some 3 => some (some .info)
  | some 4 => some (some .debug)
  | some 5 => some (some .trace)
  | _ =>
    match String.ofList (s.toList.map Char.toLower) with
    | "" | "error" => some (some .error)
    | "warn" => some (some .warn)
    | "info" => some (some .info)
    | "debug" => some (some .debug)
    | "trace" => some (some .trace)
    | "off" => some none
    | _ => none

/-- A directive as it is written: the start of the targets it speaks of, a span, fields with or
without a value, and a threshold. -/
structure Directive where
  target : Option String := none
  span : Option String := none
  fields : List (String × Bool) := []
  threshold : Threshold := some .trace
  deriving DecidableEq, Repr

/-! ### Reading directives -/

/-- How far a directive was read. Numbers are places where a part starts, counted in bytes. -/
inductive DirectiveState where
  | start
  | levelOrTarget (first : Nat)
  | span (first : Nat)
  | field (first : Nat)
  | afterField
  | afterSpan
  | level (first : Nat)
  | complete
  deriving DecidableEq, Repr

/-- The text of the bytes from one place to before another. -/
def slice (bytes : List UInt8) (first last : Nat) : String :=
  Text.Utf8.decodeLossy ((bytes.take last).drop first)

/-- Whether a directive can start with a character other than a bracket. -/
def startsDirective (c : Char) : Bool :=
  c == '-' || c == ':' || c == '_' || Text.isAlphanumeric c

/-- Checks the value of a field: a truth value, a number, or else a pattern. -/
def checkValue (text : String) : Except DirectiveFault Unit :=
  if text = "true" ∨ text = "false" ∨ (Decimal.real? text).isSome then .ok ()
  else (Pattern.check text).mapError .pattern

/-- The directive with one more field, which must not be empty. A value may follow an equals sign;
it ends with another one. -/
def Directive.addField (d : Directive) (text : String) : Except DirectiveFault Directive :=
  match text.toList.span (· != '=') with
  | ([], []) => .error .malformed
  | (name, []) => .ok { d with fields := d.fields ++ [(String.ofList name, false)] }
  | (name, _ :: value) => do
    checkValue (String.ofList (value.takeWhile (· != '=')))
    return { d with fields := d.fields ++ [(String.ofList name, true)] }

/-- The directive with the threshold that a text names. None at all means everything. -/
def Directive.setLevel (d : Directive) (text : String) : Except DirectiveFault Directive :=
  if text.isEmpty then .ok { d with threshold := some .trace }
  else
    match threshold? text with
    | some threshold => .ok { d with threshold }
    | none => .error .level

/-- The directive with the threshold that a text names or, if it names none, with everything for
the target that it is. -/
def Directive.setLevelOrTarget (d : Directive) (text : String) : Directive :=
  if text.isEmpty then { d with threshold := some .trace, target := none }
  else
    match threshold? text with
    | some threshold => { d with threshold, target := none }
    | none => { d with threshold := some .trace, target := some text }

/-- Reads one character at a place. The bytes that were written are `text`. -/
def Directive.step (text : List UInt8) (d : Directive) (state : DirectiveState) (place : Nat)
    (c : Char) : Except DirectiveFault (Directive × DirectiveState) :=
  match state with
  | .start =>
    if c = '[' then .ok (d, .span (place + 1))
    else if startsDirective c then .ok (d, .levelOrTarget place)
    else .error .malformed
  | .levelOrTarget first =>
    if c = '=' then .ok ({ d with target := some (slice text first place) }, .level (place + 1))
    else if c = '[' then
      .ok ({ d with target := some (slice text first place) }, .span (place + 1))
    else if c = ',' then .ok (d.setLevelOrTarget (slice text first text.length), .complete)
    else .ok (d, state)
  | .span first =>
    if c = ']' then .ok ({ d with span := some (slice text first place) }, .afterSpan)
    else if c = '\x7b' then
      let name := slice text first place
      .ok ({ d with span := if name.isEmpty then none else some name }, .field (place + 1))
    else .ok (d, state)
  | .field first =>
    if c = '\x7d' then do return (← d.addField (slice text first place), .afterField)
    else if c = ',' then do return (← d.addField (slice text first place), .field (place + 1))
    else .ok (d, state)
  | .afterField => if c = ']' then .ok (d, .afterSpan) else .error .malformed
  | .afterSpan => if c = '=' then .ok (d, .level (place + 1)) else .error .malformed
  | .level first =>
    if c = ',' then do return (← d.setLevel (slice text first place), .complete)
    else .ok (d, state)
  | .complete => .error .malformed

/-- Reads characters from a place on. -/
def Directive.steps (text : List UInt8) (d : Directive) (state : DirectiveState) (place : Nat) :
    List Char → Except DirectiveFault (Directive × DirectiveState)
  | [] => .ok (d, state)
  | c :: rest => do
    let (d, state) ← d.step text state place c
    Directive.steps text d state (place + c.utf8Size) rest

/-- The directive that a text is. Blanks around it do not count, but places are counted from where
they end, so blanks at the start shift what is read by as many bytes as they have. -/
def Directive.ofText (s : String) : Except DirectiveFault Directive := do
  let text := Text.Utf8.encode s
  let (d, state) ← Directive.steps text {} .start 0 (Text.trimBlanks s.toList)
  match state with
  | .levelOrTarget first => return d.setLevelOrTarget (slice text first text.length)
  | .level first => d.setLevel (slice text first text.length)
  | .afterSpan | .complete => return d
  | _ => throw .malformed

/-! ### Filters -/

/-- A directive that can speak of events: it names no span, and its fields have no values. -/
structure Rule where
  target : Option String
  fields : List String
  threshold : Threshold
  deriving DecidableEq, Repr

/-- The rule that a directive is, if it can speak of events. -/
def Directive.rule? (d : Directive) : Option Rule :=
  if d.span.isSome || d.fields.any (·.2) then none
  else some ⟨d.target, d.fields.map (·.1), d.threshold⟩

/-- Whether a directive speaks of spans or of the fields of spans. -/
def Directive.isDynamic (d : Directive) : Bool :=
  d.span.isSome || !d.fields.isEmpty

/-- Whether a rule speaks of an event. -/
def Rule.covers (r : Rule) (e : Event) : Bool :=
  (match r.target with
    | some target => target.toList.isPrefixOf e.target.toList
    | none => true) &&
    r.fields.all fun name => name == "message" || e.fields.any (·.1 == name)

/-- The length of a target, where having none is less than having an empty one. -/
def Rule.targetWeight (r : Rule) : Nat :=
  match r.target with
  | some target => target.utf8ByteSize + 1
  | none => 0

/-- Whether a rule is more specific than another: it has the longer target, or as long a one and
more fields; of equals, the one with the greater texts. -/
def Rule.precedes (a b : Rule) : Bool :=
  if a.targetWeight ≠ b.targetWeight then b.targetWeight < a.targetWeight
  else if a.fields.length ≠ b.fields.length then b.fields.length < a.fields.length
  else if a.target ≠ b.target then b.target.getD "" < a.target.getD ""
  else b.fields < a.fields

/-- Which events are logged. No two rules have one target and the same fields. -/
structure Filter where
  rules : List Rule
  deriving DecidableEq, Repr

namespace Filter

/-- The filter with one more rule, or another threshold for the rule that is there. -/
def addRule (f : Filter) (rule : Rule) : Filter where
  rules := f.rules.filter (fun r => r.target ≠ rule.target ∨ r.fields ≠ rule.fields) ++ [rule]

/-- The filter with what a directive says of events. -/
def add (f : Filter) (d : Directive) : Filter :=
  match d.rule? with
  | some rule => f.addRule rule
  | none => f

/-- The filter that some directives make up. Without any, nothing is logged. -/
def ofDirectives (directives : List Directive) : Filter :=
  directives.foldl add ⟨[]⟩

/-- The filter that some directives make up. Without any, errors alone are logged. -/
def errorsOrDirectives (directives : List Directive) : Filter :=
  let f := ofDirectives directives
  if f.rules.isEmpty && !directives.any Directive.isDynamic then ⟨[⟨none, [], some .error⟩]⟩
  else f

/-- The filter that logs nothing. -/
def silent : Filter :=
  ⟨[⟨none, [], none⟩]⟩

/-- The more specific of two rules. -/
def moreSpecific (best : Option Rule) (rule : Rule) : Option Rule :=
  match best with
  | none => some rule
  | some other => if rule.precedes other then some rule else some other

/-- The rule that decides about an event. -/
def rule? (f : Filter) (e : Event) : Option Rule :=
  (f.rules.filter (·.covers e)).foldl moreSpecific none

/-- Whether an event is logged. -/
def admits (f : Filter) (e : Event) : Bool :=
  match f.rule? e with
  | some rule => Threshold.admits rule.threshold e.level
  | none => false

end Filter

/-- The parts of a text between commas, without the empty ones. -/
def directiveTexts (s : String) : List String :=
  let split := s.toList.foldr (fun c parts =>
    if c = ',' then [] :: parts
    else
      match parts with
      | [] => [[c]]
      | part :: rest => (c :: part) :: rest) [[]]
  (split.filter fun part => !part.isEmpty).map String.ofList

/-- The filter that a text is, all of whose directives must be valid. -/
def Filter.ofText (s : String) : Except DirectiveFault Filter := do
  return .ofDirectives (← (directiveTexts s).mapM Directive.ofText)

/-- The directives among the parts of a text, and a line about each part that is none. -/
def sortDirectives : List String → List Directive × List String
  | [] => ([], [])
  | text :: rest =>
    let (directives, complaints) := sortDirectives rest
    match Directive.ofText text with
    | .ok d => (d :: directives, complaints)
    | .error fault => (directives, s!"ignoring `{text}`: {fault.message}" :: complaints)

end Log
end VirtualShell
