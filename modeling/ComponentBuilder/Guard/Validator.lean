import ComponentBuilder.Guard.Rule
import ComponentBuilder.Metrics

/-!
# Checking a candidate

A candidate is checked against every rule that applies, and the report names all violations in the
order of the rules.
-/

namespace ComponentBuilder

namespace Guard

/-- How strict checking is. -/
inductive Strictness where
  /-- Only the mandatory rules. -/
  | permissive
  /-- All rules. -/
  | strict
deriving DecidableEq, Repr

namespace Strictness

/-- The name of a strictness. -/
def label : Strictness → String
  | permissive => "permissive"
  | strict => "strict"

/-- The strictness of a name. -/
def ofLabel? : String → Option Strictness
  | "permissive" => some permissive
  | "strict" => some strict
  | _ => none

/-- Strict checking or not. -/
def ofFlag (strict : Bool) : Strictness :=
  if strict then .strict else .permissive

/-- The rules that apply. -/
def rules : Strictness → List Rule
  | strict => Rule.all
  | permissive => Rule.all.filter Rule.mandatory

end Strictness

/-- What the rules that found something found. -/
structure Report where
  findings : List (Rule × List Violation)
deriving DecidableEq, Repr

namespace Report

/-- Whether nothing was found. -/
def ok (report : Report) : Bool :=
  report.findings.isEmpty

/-- All violations, in the order of the rules. -/
def violations (report : Report) : List Violation :=
  report.findings.flatMap Prod.snd

/-- The wordings of all violations. -/
def messages (report : Report) : List String :=
  report.violations.map Violation.message

/-- The names of the rules that found something. -/
def ruleNames (report : Report) : List String :=
  report.findings.map fun finding => finding.1.name

/-- The wording of a rejection. -/
def rejection (report : Report) : String :=
  "Security Violation: " ++ " ".intercalate report.messages

/-- What is counted when a report is made. -/
def events (report : Report) : List Metrics.Event :=
  report.findings.map fun finding => .violations finding.1.name finding.2.length

end Report

/-- Check a source against every rule that applies. -/
def validate (strictness : Strictness) (source : String) : Report :=
  let text := source.toList
  ⟨(strictness.rules.map fun rule => (rule, rule.check text)).filter (!·.2.isEmpty)⟩

end Guard

end ComponentBuilder
