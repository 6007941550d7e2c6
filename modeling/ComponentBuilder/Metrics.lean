import ComponentBuilder.Keyed
import ComponentBuilder.Number.Digits
import ComponentBuilder.Text.Basic

/-!
# Counters and durations

What the builder counts and measures.  Operations of the library say what they count by a list of
events; `Metrics` adds events up and writes the totals as lines of the text exposition format.
-/

namespace ComponentBuilder

namespace Metrics

/-- Something that is counted. -/
inductive Event where
  /-- A request to generate, by its outcome. -/
  | generation (status : String)
  /-- Violations of a rule. -/
  | violations (rule : String) (count : Nat)
  /-- A candidate kept without a tree, by the family of its fault. -/
  | parseFallback (family : String)
  /-- A preview document, by its outcome. -/
  | previewCompile (outcome : String)
  /-- A call of a model, by role and outcome. -/
  | modelCall (role status : String)
  /-- A failure, by kind and component. -/
  | failure (kind component : String)
deriving DecidableEq, Repr

/-- A counter with its labels. -/
structure Series where
  name : String
  labels : List (String × String)
deriving DecidableEq, Repr

namespace Event

/-- The counter that an event adds to, its labels in the order of their names. -/
def series : Event → Series
  | .generation status => ⟨"builder_generations_total", [("status", status)]⟩
  | .violations rule _ => ⟨"builder_validation_violations_total", [("rule", rule)]⟩
  | .parseFallback family => ⟨"builder_parse_fallbacks_total", [("error_type", family)]⟩
  | .previewCompile outcome => ⟨"builder_preview_compiles_total", [("outcome", outcome)]⟩
  | .modelCall role status => ⟨"builder_llm_calls_total", [("role", role), ("status", status)]⟩
  | .failure kind component =>
      ⟨"builder_errors_total", [("component", component), ("error_type", kind)]⟩

/-- How much an event adds. -/
def amount : Event → Nat
  | .violations _ count => count
  | _ => 1

end Event

end Metrics

/-- Totals of the counters in the order of first use, and the durations that were measured. -/
structure Metrics where
  totals : List (Metrics.Series × Nat)
  generationSeconds : List Double
  callSeconds : Keyed (List Double)

namespace Metrics

/-- Nothing counted or measured. -/
def empty : Metrics where
  totals := []
  generationSeconds := []
  callSeconds := .empty

instance : Inhabited Metrics := ⟨empty⟩

/-- Add to a counter, which is there from then on even when nothing is added. -/
def addTo (series : Series) (amount : Nat) : List (Series × Nat) → List (Series × Nat)
  | [] => [(series, amount)]
  | (s, n) :: rest =>
      if s = series then (s, n + amount) :: rest else (s, n) :: addTo series amount rest

/-- Count an event. -/
def count (m : Metrics) (event : Event) : Metrics :=
  { m with totals := addTo event.series event.amount m.totals }

/-- Count events one after the other. -/
def countAll (m : Metrics) (events : List Event) : Metrics :=
  events.foldl count m

/-- Count violations of a rule; a count below zero is refused. -/
def countViolations (m : Metrics) (rule : String) (number : Int) : Except String Metrics :=
  if number < 0 then .error "Counters can only be incremented by non-negative amounts."
  else .ok (m.count (.violations rule number.toNat))

/-- The words that counters are sorted by. -/
def Series.key (series : Series) : List String :=
  series.name :: series.labels.flatMap fun label => [label.1, label.2]

/-- The totals sorted by name and labels. -/
def sortedTotals (m : Metrics) : List (Series × Nat) :=
  m.totals.mergeSort fun a b => !decide (b.1.key < a.1.key)

/-- The total of a counter. -/
def total (m : Metrics) (series : Series) : Nat :=
  (m.totals.lookup series).getD 0

/-- Measure how long a generation took. -/
def observeGeneration (m : Metrics) (seconds : Double) : Metrics :=
  { m with generationSeconds := m.generationSeconds ++ [seconds] }

/-- Measure how long a call of a model took. -/
def observeCall (m : Metrics) (role : String) (seconds : Double) : Metrics :=
  { m with callSeconds := m.callSeconds.set role ((m.callSeconds.get? role).getD [] ++ [seconds]) }

/-- The text of a label's value inside quotes. -/
def escapeLabel (value : String) : String :=
  String.ofList (value.toList.flatMap fun c =>
    if c = '\\' then ['\\', '\\']
    else if c = '\n' then ['\\', 'n']
    else if c = '"' then ['\\', '"']
    else [c])

/-- The text of labels. -/
def labelText (labels : List (String × String)) : String :=
  if labels.isEmpty then ""
  else
    "\x7b" ++ ",".intercalate (labels.map fun label =>
      label.1 ++ "=\"" ++ escapeLabel label.2 ++ "\"") ++ "\x7d"

/--
The text of a sample: its shortest digits, with an exponent from a million on.
-/
def sampleText (x : Double) : String :=
  if x.isNaN then "NaN"
  else if !x.isFinite then (if x.isNegative then "-Inf" else "+Inf")
  else
    let text := x.displayText.toList
    let whole := text.takeWhile (· != '.')
    if !x.isNegative && !x.isZero && whole.length < text.length && 6 < whole.length then
      let digits := whole.head?.toList ++ '.' :: (whole.tail ++ (text.drop (whole.length + 1)))
      let mantissa := (digits.reverse.dropWhile fun c => c == '0' || c == '.').reverse
      String.ofList mantissa ++ "e+0" ++ toString (whole.length - 1)
    else String.ofList text

/-- A line of the exposition. -/
def line (name : String) (labels : List (String × String)) (value : Double) : String :=
  name ++ labelText labels ++ " " ++ sampleText value

/-- The lines of a counter. -/
def counterLines (m : Metrics) (name : String) : List String :=
  (m.totals.filter (·.1.name == name)).map fun entry =>
    line name entry.1.labels (Double.ofInt entry.2)

/-- The lines of a histogram over the given upper bounds. -/
def histogramLines (name : String) (bounds : List Double) (labels : List (String × String))
    (observed : List Double) : List String :=
  let below (bound : Double) := Double.ofInt (observed.countP (·.le bound))
  let total := Double.ofInt observed.length
  bounds.map (fun bound =>
      line (name ++ "_bucket") (("le", sampleText bound) :: labels) (below bound)) ++
    [line (name ++ "_bucket") (("le", "+Inf") :: labels) total,
      line (name ++ "_count") labels total,
      line (name ++ "_sum") labels (observed.foldl Double.add (Double.ofInt 0))]

/-- Tenths of seconds as bounds. -/
def tenths (bounds : List Nat) : List Double :=
  bounds.map fun n => Double.ofDecimal false n (-1)

/-- Upper bounds for the duration of a generation. -/
def generationBounds : List Double :=
  tenths [5, 10, 25, 50, 100, 300, 600, 1200]

/-- Upper bounds for the duration of a call of a model. -/
def callBounds : List Double :=
  tenths [1, 5, 10, 25, 50, 100, 300, 600]

/-- All lines of the exposition that the builder adds, its age excepted. -/
def lines (m : Metrics) : List String :=
  m.counterLines "builder_generations_total" ++
    histogramLines "builder_generation_duration_seconds" generationBounds [] m.generationSeconds ++
    m.counterLines "builder_validation_violations_total" ++
    m.counterLines "builder_parse_fallbacks_total" ++
    m.counterLines "builder_preview_compiles_total" ++
    m.counterLines "builder_llm_calls_total" ++
    m.callSeconds.entries.flatMap (fun entry =>
      histogramLines "builder_llm_duration_seconds" callBounds [("role", entry.1)] entry.2) ++
    m.counterLines "builder_errors_total"

end Metrics

end ComponentBuilder
