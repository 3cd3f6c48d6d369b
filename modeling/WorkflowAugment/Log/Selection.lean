import WorkflowAugment.Log.Filter

/-!
# What a filter lets through

A directive without the name of a span and without the value of a field decides everywhere; of those that speak of a
record the most specific one counts. A directive with the name of a span or with a field speaks of spans: one that it
speaks of is opened, and while it is open records are let through up to the level of every such directive whose test the
span passes.
-/

namespace WorkflowAugment

namespace Directive

/-- The directive decides outside of spans too. -/
def isGeneral (d : Directive) : Bool := d.span.isNone && !d.asksForValue

/-- The directive speaks of spans. -/
def isOnSpans (d : Directive) : Bool := d.span.isSome || d.field.isSome

/-- A general directive speaks of the record. -/
def concernsRecord (d : Directive) (r : Record) : Bool :=
  d.isGeneral && d.covers r.target && d.field.all fun t => t.name ∈ r.fieldNames

/-- A general directive speaks of the span, whatever its fields. -/
def concernsSpan (d : Directive) (s : Span) : Bool := d.isGeneral && d.covers s.target

/-- A directive on spans speaks of the span. -/
def watches (d : Directive) (s : Span) : Bool :=
  d.isOnSpans && d.covers s.target && d.span.all (· = s.name) && d.field.all fun t => (s.value? t.name).isSome

/-- The span is as the directive asks. -/
def passes (s : Span) (d : Directive) : Bool := d.field.all (·.passes s)

/-- How long the target of the directive is. -/
def weight (d : Directive) : Nat := d.target.elim 0 String.length

/-- The second directive is at least as specific as the first: its target is longer, or they differ at most in the
field, of which the one that comes later in order counts as more specific and none as least. -/
def atMost (d e : Directive) : Bool :=
  d.weight < e.weight || d.weight = e.weight &&
    match d.field, e.field with
    | none, _ => true
    | some _, none => false
    | some t, some u => t.name ≤ u.name

/-- The directives say the same up to the level. -/
def restates (d e : Directive) : Bool := d.target = e.target && d.span = e.span && d.field = e.field

end Directive

namespace Filter

/-- The most specific directive, of several the last. -/
def deciding? (f : Filter) : Option Directive :=
  f.foldl
    (fun best d =>
      match best with
      | none => some d
      | some b => if b.atMost d then some d else some b)
    none

/-- A level is let through by the directive that decides. -/
def admits (f : Filter) (level : Level) : Bool := f.deciding?.any (·.limit.admits level)

/-- A record is let through wherever it falls. -/
def admitsRecord (f : Filter) (r : Record) : Bool := admits (f.filter (·.concernsRecord r)) r.level

/-- The directives without those that a later one states again. -/
def latest : Filter → Filter
  | [] => []
  | d :: ds => if ds.any d.restates then latest ds else d :: latest ds

/-- The directives that speak of the span in particular. -/
def watching (f : Filter) (s : Span) : Filter := f.latest.filter (·.watches s)

/-- A span is opened. -/
def opens (f : Filter) (s : Span) : Bool :=
  f.widest.admits s.level && (!(f.watching s).isEmpty || admits (f.filter (·.concernsSpan s)) s.level)

/-- How far records are let through because the span is open. -/
def inside (f : Filter) (s : Span) : Limit :=
  ((f.watching s).filter (·.passes s)).foldl (fun l d => if l.rank < d.limit.rank then d.limit else l) none

end Filter

end WorkflowAugment
