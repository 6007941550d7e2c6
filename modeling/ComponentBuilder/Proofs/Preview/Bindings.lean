import ComponentBuilder.Preview.Script
import ComponentBuilder.Proofs.Text.Captures
import ComponentBuilder.Proofs.Text.Run

/-!
# The names that a preview binds

A name is bound to what it is given first: by an import, or as a mentioned name that nothing else declares.
React is passed to the component, so a name that is bound to it hides the real one.  A mentioned React and a
default import of it bind nothing, but an import in braces and an import of a whole module may take the name.
-/

namespace ComponentBuilder.Preview

open Text

/-! ## The binding of a name -/

theorem find?_addBinding (bindings : List Binding) (binding : Binding) (name : String) :
    (addBinding bindings binding).find? (·.name == name) = (bindings ++ [binding]).find? (·.name == name) := by
  unfold addBinding
  split_ifs with hbound
  · obtain ⟨first, hfirst, hname⟩ := List.any_eq_true.1 hbound
    rw [List.find?_append]
    cases hfind : bindings.find? (·.name == name) with
    | some found => rfl
    | none =>
        have hother : (binding.name == name) = false := by
          rw [← beq_iff_eq.1 hname]
          simpa using List.find?_eq_none.1 hfind first hfirst
        simp [hother]
  · rfl

/-- A name keeps the binding that it was given first. -/
theorem find?_foldl_addBinding (bindings added : List Binding) (name : String) :
    (added.foldl addBinding bindings).find? (·.name == name) = (bindings ++ added).find? (·.name == name) := by
  induction added generalizing bindings with
  | nil => rw [List.foldl_nil, List.append_nil]
  | cons binding added ih =>
      rw [List.foldl_cons, ih, List.find?_append, find?_addBinding, ← List.find?_append, List.append_assoc,
        List.singleton_append]

/-- The mentioned names that are bound, each standing for itself. -/
def mentionedBindings (mentioned declared : List String) : List Binding :=
  (mentioned.filter (bindsMentioned declared)).map fun name => ⟨name, .standIn name⟩

theorem find?_resolveBindings (imports : List Binding) (mentioned declared : List String) (name : String) :
    (resolveBindings imports mentioned declared).find? (·.name == name) =
      (imports ++ mentionedBindings mentioned declared).find? (·.name == name) := by
  have hmentioned := find?_foldl_addBinding (imports.foldl addBinding []) (mentionedBindings mentioned declared) name
  rw [mentionedBindings, List.foldl_map] at hmentioned
  rw [resolveBindings, hmentioned, List.find?_append, find?_foldl_addBinding, List.nil_append,
    ← List.find?_append]
  rfl

/-- The bound names are those of the imports and the mentioned ones that need a binding. -/
theorem mem_names_resolveBindings {imports : List Binding} {mentioned declared : List String} {name : String} :
    name ∈ (resolveBindings imports mentioned declared).map Binding.name ↔
      name ∈ imports.map Binding.name ∨ name ∈ mentioned ∧ bindsMentioned declared name = true := by
  have hfound (bindings : List Binding) :
      (bindings.find? (·.name == name)).isSome = true ↔ name ∈ bindings.map Binding.name := by
    simp [List.find?_isSome]
  rw [← hfound, find?_resolveBindings, hfound, List.map_append, List.mem_append, mentionedBindings, List.map_map]
  simp

/-- A name that is not mentioned is bound by the imports alone. -/
theorem find?_resolveBindings_of_not_mem {imports : List Binding} {mentioned declared : List String} {name : String}
    (h : name ∉ mentioned) :
    (resolveBindings imports mentioned declared).find? (·.name == name) = imports.find? (·.name == name) := by
  have hnone : (mentionedBindings mentioned declared).find? (·.name == name) = none := by
    rw [List.find?_eq_none, mentionedBindings]
    rintro binding hmem hname
    obtain ⟨other, hother, rfl⟩ := List.mem_map.1 hmem
    exact h (beq_iff_eq.1 hname ▸ List.mem_of_mem_filter hother)
  rw [find?_resolveBindings, List.find?_append, hnone, Option.or_none]

theorem not_mem_detectIdentifiers {source : List Char} {name : String} (h : Shims.globalNames.contains name = true) :
    name ∉ detectIdentifiers source := by
  simp only [detectIdentifiers, List.mem_filter, h, Bool.not_true, Bool.false_and]
  simp

/-! ## The parts of an import clause -/

/-- The text of an import clause as it is read: comments give way to blanks, and the ends are trimmed. -/
def clauseText (clause : List Char) : List Char :=
  trim (comment.replace (fun _ => [' ']) clause)

/-- The names of a specifier: the one that is imported, and the one that it is given. -/
def specifierNames (specifier : List Char) : List Char × List Char :=
  let parts := (aliasWord.splitBy (trim (dropFront "type ".toList specifier))).map trim
  (parts.headD [], parts.getLastD [])

theorem specifierBinding?_eq (specifier : List Char) :
    specifierBinding? specifier =
      if isIdentifier (specifierNames specifier).1 && isIdentifier (specifierNames specifier).2 &&
          !Vocabulary.hooks.contains (String.ofList (specifierNames specifier).1) then
        some ⟨String.ofList (specifierNames specifier).2, .standIn (String.ofList (specifierNames specifier).1)⟩
      else none := rfl

/-- A specifier gives a name to what it imports: both are identifiers, and the imported one is no hook. -/
structure Gives (specifier : List Char) (name : String) : Prop where
  imported : isIdentifier (specifierNames specifier).1 = true
  not_hook : String.ofList (specifierNames specifier).1 ∉ Vocabulary.hooks
  identifier : isIdentifier name.toList = true
  given : (specifierNames specifier).2 = name.toList

theorem mem_filterMap_specifierBinding? {specifiers : List (List Char)} {name : String} :
    name ∈ (specifiers.filterMap specifierBinding?).map Binding.name ↔
      ∃ specifier ∈ specifiers, Gives specifier name := by
  have hgives (specifier : List Char) :
      (∃ binding, specifierBinding? specifier = some binding ∧ binding.name = name) ↔ Gives specifier name := by
    rw [specifierBinding?_eq]
    constructor
    · rintro ⟨binding, hsome, rfl⟩
      split_ifs at hsome with hvalid
      obtain rfl := Option.some.inj hsome
      simp only [Bool.and_eq_true, Bool.not_eq_true', List.contains_eq_mem, decide_eq_false_iff_not] at hvalid
      exact ⟨hvalid.1.1, hvalid.2, by simpa using hvalid.1.2, by simp⟩
    · rintro ⟨himported, hhook, hidentifier, hgiven⟩
      refine ⟨_, if_pos ?_, ?_⟩
      · simp only [Bool.and_eq_true, Bool.not_eq_true', List.contains_eq_mem, decide_eq_false_iff_not]
        exact ⟨⟨himported, hgiven ▸ hidentifier⟩, hhook⟩
      · rw [hgiven, String.ofList_toList]
  simp only [List.mem_map, List.mem_filterMap, ← hgives]
  constructor
  · rintro ⟨binding, ⟨specifier, hmem, hsome⟩, hname⟩
    exact ⟨specifier, hmem, binding, hsome, hname⟩
  · rintro ⟨specifier, hmem, binding, hsome, hname⟩
    exact ⟨binding, ⟨specifier, hmem, hsome⟩, hname⟩

/-- A text with something in braces, from the first brace to the one that closes it. -/
structure Braced (text front inside back : List Char) : Prop where
  text_eq : text = front ++ '\x7b' :: (inside ++ '\x7d' :: back)
  opening : '\x7b' ∉ front
  closing : '\x7d' ∉ inside

/-- From a brace the pattern goes to the first brace that closes. -/
theorem matchAt?_namedClause {inside : List Char} (h : '\x7d' ∉ inside) (behind back : List Char) (offset : Nat) :
    namedClause.matchAt? ⟨behind, offset, '\x7b' :: (inside ++ '\x7d' :: back), []⟩ =
      some ⟨'\x7d' :: (inside.reverse ++ '\x7b' :: behind), offset + 1 + inside.length + 1, back, inside⟩ := by
  rw [namedClause, Pattern.matchAt?, Pattern.run_append, Pattern.run_append, Pattern.run_one (by decide),
    Pattern.run_capture]
  refine Pattern.creep_append (fun _ _ => rfl) ?_ ?_
  · intro a b hsplit hb
    obtain ⟨c, b, rfl⟩ := List.exists_cons_of_ne_nil hb
    have hother : (c == '\x7d') = false := by
      rw [beq_eq_false_iff_ne]
      rintro rfl
      exact h (by simp [hsplit])
    simp [Pattern.run, Pattern.after, hother]
  · simp [Pattern.run, Pattern.after, Spot.textTo, Spot.next]

theorem takeOut_namedClause {text front inside back : List Char} (h : Braced text front inside back) :
    takeOut namedClause text = some (inside, front ++ back) := by
  obtain ⟨rfl, hopening, hclosing⟩ := h
  have hnone (a : List Char) (c : Char) (b : List Char) (hsplit : front = a ++ c :: b) (behind : List Char)
      (offset : Nat) :
      namedClause.matchAt? ⟨behind, offset, c :: (b ++ '\x7b' :: (inside ++ '\x7d' :: back)), []⟩ = none := by
    have hother : (c == '\x7b') = false := by
      rw [beq_eq_false_iff_ne]
      rintro rfl
      exact hopening (by simp [hsplit])
    simp [namedClause, Pattern.matchAt?, Pattern.run_append, Pattern.run, hother]
  rw [takeOut, Pattern.search?, Pattern.searchFrom_append_of_none hnone, Pattern.searchFrom,
    matchAt?_namedClause hclosing]
  simp

theorem exists_braced {text : List Char} {found : List Char × List Char} (h : takeOut namedClause text = some found) :
    ∃ front inside back, Braced text front inside back := by
  have hoccurs : namedClause.occurs text = true := by
    rw [Pattern.occurs, Option.isSome_iff_exists]
    obtain ⟨place, hplace, -⟩ := Option.map_eq_some_iff.1 h
    exact ⟨place, hplace⟩
  obtain ⟨a, -, b, rfl, -, -, rfl, ⟨-, r, rfl, ⟨c, rfl, hc⟩, -⟩, d, rfl, hd⟩ := Pattern.occurs_iff.1 hoccurs
  obtain rfl : c = '\x7b' := beq_iff_eq.1 hc
  obtain rfl : d = '\x7d' := beq_iff_eq.1 hd
  -- The place that is found need not be the first one, so the text is cut again at its first brace.
  have hcut : ∃ front tail, a ++ ([('\x7b' : Char)] ++ r ++ ['\x7d'] ++ b) = front ++ '\x7b' :: tail ∧
      '\x7b' ∉ front ∧ '\x7d' ∈ tail := by
    by_cases ha : '\x7b' ∈ a
    · obtain ⟨front, tail, rfl, hfront⟩ := List.eq_append_cons_of_mem ha
      exact ⟨front, tail ++ ([('\x7b' : Char)] ++ r ++ ['\x7d'] ++ b), by simp, hfront, by simp⟩
    · exact ⟨a, r ++ '\x7d' :: b, by simp, ha, by simp⟩
  obtain ⟨front, tail, htext, hopening, hmem⟩ := hcut
  obtain ⟨inside, back, rfl, hclosing⟩ := List.eq_append_cons_of_mem hmem
  exact ⟨front, inside, back, htext, hopening, hclosing⟩

/-- The ways in which an import clause gives a name, apart from its default part. -/
inductive Introduces (clause : List Char) (name : String) : Prop
  /-- By a specifier in its braces. -/
  | inBraces {front inside back specifier : List Char} (braced : Braced clause front inside back)
      (mem : specifier ∈ listParts inside) (gives : Gives specifier name)
  /-- As the name of the whole module, outside of the braces. -/
  | whole {rest : List Char}
      (found : takeOut wholeClause (namedBindings clause).2 = some (name.toList, rest))

theorem mem_namedBindings_iff {clause : List Char} {name : String} :
    name ∈ (namedBindings clause).1.map Binding.name ↔
      ∃ front inside back, Braced clause front inside back ∧
        ∃ specifier ∈ listParts inside, Gives specifier name := by
  rw [namedBindings]
  constructor
  · intro h
    cases hfound : takeOut namedClause clause with
    | none => simp [hfound] at h
    | some found =>
        obtain ⟨front, inside, back, hbraced⟩ := exists_braced hfound
        rw [takeOut_namedClause hbraced] at h
        exact ⟨front, inside, back, hbraced, mem_filterMap_specifierBinding?.1 h⟩
  · rintro ⟨front, inside, back, hbraced, hgives⟩
    rw [takeOut_namedClause hbraced]
    exact mem_filterMap_specifierBinding?.2 hgives

theorem mem_wholeBindings_iff {clause : List Char} {name : String} :
    name ∈ (wholeBindings clause).1.map Binding.name ↔
      ∃ rest, takeOut wholeClause clause = some (name.toList, rest) := by
  rw [wholeBindings]
  cases takeOut wholeClause clause with
  | none => simp
  | some found =>
      obtain ⟨whole, rest⟩ := found
      simp [← String.toList_inj, eq_comm]

/-- A default import of React binds nothing. -/
theorem react_not_mem_defaultBindings (clause : List Char) :
    "React" ∉ (defaultBindings clause).map Binding.name := by
  unfold defaultBindings
  dsimp only
  split_ifs with hdefault
  · simp only [Bool.and_eq_true, bne_iff_ne, ne_eq] at hdefault
    intro h
    apply hdefault.2
    simpa [← String.toList_inj, eq_comm] using h
  · simp

theorem clauseBindings_eq (clause : List Char) :
    clauseBindings clause =
      if "type ".toList.isPrefixOf (clauseText clause) then []
      else
        (namedBindings (clauseText clause)).1 ++ (wholeBindings (namedBindings (clauseText clause)).2).1 ++
          defaultBindings (wholeBindings (namedBindings (clauseText clause)).2).2 := rfl

theorem react_mem_clauseBindings_iff {clause : List Char} :
    "React" ∈ (clauseBindings clause).map Binding.name ↔
      ¬"type ".toList <+: clauseText clause ∧ Introduces (clauseText clause) "React" := by
  rw [clauseBindings_eq]
  split_ifs with htype
  · have hprefix := List.isPrefixOf_iff_prefix.1 htype
    exact ⟨by simp, fun h => absurd hprefix h.1⟩
  · rw [List.map_append, List.map_append, List.mem_append, List.mem_append, mem_namedBindings_iff,
      mem_wholeBindings_iff]
    constructor
    · rintro ((⟨front, inside, back, hbraced, specifier, hmem, hgives⟩ | ⟨rest, hfound⟩) | hdefault)
      · exact ⟨fun h => htype (List.isPrefixOf_iff_prefix.2 h), .inBraces hbraced hmem hgives⟩
      · exact ⟨fun h => htype (List.isPrefixOf_iff_prefix.2 h), .whole hfound⟩
      · exact absurd hdefault (react_not_mem_defaultBindings _)
    · rintro ⟨-, ⟨hbraced, hmem, hgives⟩ | ⟨hfound⟩⟩
      · exact .inl (.inl ⟨_, _, _, hbraced, _, hmem, hgives⟩)
      · exact .inl (.inr ⟨_, hfound⟩)

theorem react_mem_collectImports_iff {source : List Char} :
    "React" ∈ (collectImports source).map Binding.name ↔
      ∃ clause ∈ importStatement.captures source,
        ¬"type ".toList <+: clauseText clause ∧ Introduces (clauseText clause) "React" := by
  rw [collectImports, List.map_flatMap, List.mem_flatMap]
  simp only [react_mem_clauseBindings_iff]

/-- React is bound exactly when an import statement names it in its braces or gives its name to a whole
module; then it stands for what the first such statement imports. -/
theorem react_bound_iff (source : String) :
    ("React" ∈ (prepare source).bindings.map Binding.name ↔
      ∃ clause ∈ importStatement.captures source.toList,
        ¬"type ".toList <+: clauseText clause ∧ Introduces (clauseText clause) "React") ∧
    (prepare source).bindings.find? (·.name == "React") =
      (collectImports source.toList).find? (·.name == "React") := by
  have hunmentioned : "React" ∉ detectIdentifiers source.toList := not_mem_detectIdentifiers (by decide)
  constructor
  · rw [← react_mem_collectImports_iff, prepare, mem_names_resolveBindings]
    simp [hunmentioned]
  · rw [prepare]
    exact find?_resolveBindings_of_not_mem hunmentioned

/-- A module that is named React, a specifier and an alias take the name away from React itself. -/
theorem react_shadowed :
    (prepare "import * as React from 'react';\n").bindings = [⟨"React", .wholeModule⟩] ∧
      (prepare "import \x7b React \x7d from 'react';\n").bindings = [⟨"React", .standIn "React"⟩] ∧
      (prepare "import \x7b Fragment as React \x7d from 'react';\n").bindings =
        [⟨"React", .standIn "Fragment"⟩, ⟨"Fragment", .standIn "Fragment"⟩] := by
  decide +kernel

end ComponentBuilder.Preview
