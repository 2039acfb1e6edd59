import Discography.Log.Directive

/-!
# Log filters

A filter is a list of directives. Of those that apply to an event the one with the longest target
decides; among those with the same target, one that asks for a field comes before one that does not,
and a later one replaces an earlier one. An event to which no directive applies is dropped.

A directive that names a span lets the events inside that span pass in addition, whatever their
targets. Spans have no fields, so a directive that asks for the field of a span concerns none.

## Main definitions

* `Log.Filter`: the type
* `Log.Filter.parse`: the filter that a text stands for
* `Log.Filter.enables`: whether an event outside of all spans passes
* `Log.Filter.enablesWithin`: whether an event inside a span passes
* `Log.Filter.tracks`: whether a span is known to the entries of its events
-/

namespace Discography.Log

/-- A list of directives. -/
abbrev Filter := List Directive

namespace Directive

/-- Whether a target begins with the text that a directive asks for. -/
def covers (d : Directive) (target : String) : Bool := d.target.toList.isPrefixOf target.toList

/-- Whether a directive speaks of events themselves, and not of the spans around them. -/
def isStatic (d : Directive) : Bool := d.span.isNone && d.field.all (·.pattern.isNone)

/-- Whether a directive applies to an event: it covers the target, and the event has the field that
is asked for. -/
def applies (d : Directive) (e : Event) : Bool :=
  d.isStatic && d.covers e.target && d.field.all (e.fieldNames.contains ·.name)

/-- Whether a directive applies to a span as it does to events; fields are not asked for. -/
def appliesToSpan (d : Directive) (s : Span) : Bool := d.isStatic && d.covers s.target

/-- Whether a directive is about the inside of a span. -/
def concerns (d : Directive) (s : Span) : Bool :=
  d.span == some s.name && d.field.isNone && d.covers s.target

/-- Whether a later directive replaces an earlier one. -/
def replaces (later earlier : Directive) : Bool :=
  later.target == earlier.target && later.span == earlier.span && later.field == earlier.field

/-- Whether the field of a directive makes it as special as another with the same target. -/
def fieldWeighs (d other : Directive) : Bool :=
  match other.field, d.field with
  | none, _ => true
  | some _, none => false
  | some there, some here => there.name ≤ here.name

/-- Whether a directive is as special as another, so that it decides if both apply and it comes
later. -/
def outweighs (d other : Directive) : Bool :=
  other.target.length < d.target.length ||
    (other.target.length == d.target.length && d.fieldWeighs other)

end Directive

namespace Filter

/-- The filter that a text stands for; empty parts between commas are ignored. -/
def parse (text : String) : Except FilterError Filter :=
  ((text.toList.splitOn ',').filter (!·.isEmpty)).mapM Directive.parse

/-- The more decisive of two directives, the first of which may be missing. -/
def prevailing (best : Option Directive) (d : Directive) : Option Directive :=
  if best.all d.outweighs then some d else best

/-- The most decisive of the directives with a property. -/
def decisive (f : Filter) (p : Directive → Bool) : Option Directive :=
  (f.filter p).foldl prevailing none

/-- Whether an event passes outside of all spans. -/
def enables (f : Filter) (e : Event) : Bool :=
  (f.decisive (·.applies e)).any (·.threshold.admits e.level)

/-- The directives that no later one replaces. -/
def standing : Filter → Filter
  | [] => []
  | d :: rest => if rest.any (·.replaces d) then standing rest else d :: standing rest

/-- Whether spans of a level are looked at: some directive lets the level pass, be it replaced
later, or asks for the value of a field. -/
def reaches (f : Filter) (level : Level) : Bool :=
  f.any fun d => d.threshold.admits level || d.field.any (·.pattern.isSome)

/-- Whether a span is known to the entries of its events: it passes like an event, or there is a
directive about its inside and its level is looked at. -/
def tracks (f : Filter) (s : Span) : Bool :=
  (f.decisive (·.appliesToSpan s)).any (·.threshold.admits s.level) ||
    (f.any (·.concerns s) && f.reaches s.level)

/-- Whether an event passes inside a span. -/
def enablesWithin (f : Filter) (s : Span) (e : Event) : Bool :=
  f.enables e ||
    (f.tracks s && f.standing.any fun d => d.concerns s && d.threshold.admits e.level)

end Filter

end Discography.Log
