import ComponentBuilder.Json.Printer
import ComponentBuilder.Proofs.Preview.Bindings
import ComponentBuilder.Proofs.Preview.Clauses

/-!
# The declarations in front of a script

The runtime of a document declares every bound name in front of the script and does not escape the name, so
the names have to be identifiers, whatever the source is.  Each way into the list of bindings checks this by
itself; the list then holds a name once, with what it was given first.
-/

namespace ComponentBuilder.Preview

open Text

/-! ## The names of a list -/

theorem nodup_addBinding {bindings : List Binding} (h : (bindings.map Binding.name).Nodup) (binding : Binding) :
    ((addBinding bindings binding).map Binding.name).Nodup := by
  unfold addBinding
  split_ifs with hbound
  · exact h
  · rw [List.map_append, List.map_singleton]
    apply List.nodup_append.2
    refine ⟨h, List.nodup_singleton _, ?_⟩
    intro name hname other hother heq
    obtain ⟨first, hfirst, rfl⟩ := List.mem_map.1 hname
    rw [List.mem_singleton] at hother
    exact hbound (List.any_eq_true.2 ⟨first, hfirst, beq_iff_eq.2 (heq.trans hother)⟩)

theorem nodup_foldl_addBinding {bindings : List Binding} (h : (bindings.map Binding.name).Nodup)
    (added : List Binding) : ((added.foldl addBinding bindings).map Binding.name).Nodup := by
  induction added generalizing bindings with
  | nil => exact h
  | cons binding added ih => exact ih (nodup_addBinding h binding)

theorem nodup_resolveBindings (imports : List Binding) (mentioned declared : List String) :
    ((resolveBindings imports mentioned declared).map Binding.name).Nodup := by
  have hempty : (([] : List Binding).map Binding.name).Nodup := List.nodup_nil
  have hmentioned := nodup_foldl_addBinding (nodup_foldl_addBinding hempty imports)
    (mentionedBindings mentioned declared)
  rwa [mentionedBindings, List.foldl_map] at hmentioned

/-- In a list without a name twice, a binding is the one that its name is found with. -/
theorem find?_name_of_mem {bindings : List Binding} (h : (bindings.map Binding.name).Nodup) {binding : Binding}
    (hmem : binding ∈ bindings) : bindings.find? (·.name == binding.name) = some binding := by
  induction bindings with
  | nil => cases hmem
  | cons first bindings ih =>
      obtain ⟨hfirst, hrest⟩ := List.nodup_cons.1 h
      rcases List.mem_cons.1 hmem with rfl | hmem
      · simp
      · have hother : first.name ≠ binding.name := by
          intro heq
          exact hfirst (heq ▸ List.mem_map_of_mem hmem)
        rw [List.find?_cons_of_neg (by simpa using hother)]
        exact ih hrest hmem

theorem mem_of_mem_resolveBindings {imports : List Binding} {mentioned declared : List String} {binding : Binding}
    (h : binding ∈ resolveBindings imports mentioned declared) :
    binding ∈ imports ∨ ∃ name ∈ mentioned, binding = ⟨name, .standIn name⟩ := by
  have hfind := find?_name_of_mem (nodup_resolveBindings imports mentioned declared) h
  rw [find?_resolveBindings] at hfind
  rcases List.mem_append.1 (List.mem_of_find?_eq_some hfind) with himport | hmentioned
  · exact .inl himport
  · obtain ⟨name, hname, rfl⟩ := List.mem_map.1 hmentioned
    exact .inr ⟨name, List.mem_of_mem_filter hname, rfl⟩

/-! ## Identifiers on each way into the list -/

/-- A name that is an identifier, bound to the whole module or to the stand-in of an identifier. -/
structure Binding.Proper (binding : Binding) : Prop where
  name : isIdentifier binding.name.toList = true
  target : binding.target = .wholeModule ∨ ∃ name, binding.target = .standIn name ∧ isIdentifier name.toList = true

theorem proper_of_specifierBinding? {specifier : List Char} {binding : Binding}
    (h : specifierBinding? specifier = some binding) : binding.Proper := by
  rw [specifierBinding?_eq] at h
  split_ifs at h with hvalid
  obtain rfl := Option.some.inj h
  simp only [Bool.and_eq_true] at hvalid
  obtain ⟨⟨himported, hname⟩, -⟩ := hvalid
  exact ⟨by simpa using hname, .inr ⟨_, rfl, by simpa using himported⟩⟩

theorem proper_of_mem_namedBindings {clause : List Char} {binding : Binding}
    (h : binding ∈ (namedBindings clause).1) : binding.Proper := by
  rw [namedBindings] at h
  cases hfound : takeOut namedClause clause with
  | none => simp [hfound] at h
  | some found =>
      rw [hfound] at h
      obtain ⟨specifier, -, hspecifier⟩ := List.mem_filterMap.1 h
      exact proper_of_specifierBinding? hspecifier

/-- What is taken out as the name of the whole module is what the pattern of names has captured. -/
theorem isIdentifier_of_takeOut {clause : List Char} {found : List Char × List Char}
    (h : takeOut wholeClause clause = some found) : isIdentifier found.1 = true := by
  obtain ⟨⟨first, last⟩, hsearch, rfl⟩ := Option.map_eq_some_iff.1 h
  obtain ⟨a, part, rest, -, -, name, -, -, -, ⟨c, more, hname, ⟨d, rfl, hd⟩, -, hmore⟩, hcaptured⟩ :=
    Pattern.exists_of_searchFrom hsearch
  show isIdentifier last.captured = true
  rw [hcaptured, hname]
  exact isIdentifier_cons hd hmore

theorem proper_of_mem_wholeBindings {clause : List Char} {binding : Binding}
    (h : binding ∈ (wholeBindings clause).1) : binding.Proper := by
  rw [wholeBindings] at h
  cases hfound : takeOut wholeClause clause with
  | none => simp [hfound] at h
  | some found =>
      rw [hfound] at h
      obtain rfl := List.mem_singleton.1 h
      have hname := isIdentifier_of_takeOut hfound
      exact ⟨by simpa using hname, .inl rfl⟩

theorem proper_of_mem_defaultBindings {clause : List Char} {binding : Binding}
    (h : binding ∈ defaultBindings clause) : binding.Proper := by
  unfold defaultBindings at h
  dsimp only at h
  split_ifs at h with hvalid
  · obtain rfl := List.mem_singleton.1 h
    obtain ⟨hname, -⟩ := Bool.and_eq_true_iff.1 hvalid
    exact ⟨by simpa using hname, .inr ⟨_, rfl, by simpa using hname⟩⟩
  · cases h

theorem proper_of_mem_collectImports {source : List Char} {binding : Binding}
    (h : binding ∈ collectImports source) : binding.Proper := by
  obtain ⟨clause, -, hclause⟩ := List.mem_flatMap.1 h
  rw [clauseBindings_eq] at hclause
  split_ifs at hclause
  · cases hclause
  · rw [List.mem_append, List.mem_append] at hclause
    rcases hclause with (hnamed | hwhole) | hdefault
    · exact proper_of_mem_namedBindings hnamed
    · exact proper_of_mem_wholeBindings hwhole
    · exact proper_of_mem_defaultBindings hdefault

/-- A capitalised word is an identifier. -/
theorem isIdentifier_of_mem_detectIdentifiers {source : List Char} {name : String}
    (h : name ∈ detectIdentifiers source) : isIdentifier name.toList = true := by
  obtain ⟨hit, hhit, rfl⟩ := List.mem_map.1 (mem_distinct.1 (List.mem_of_mem_filter h))
  obtain ⟨a, rest, -, hkeeps⟩ := Pattern.exists_of_mem_hits hhit
  obtain ⟨word, tail, hword, ⟨start, more, rfl, ⟨empty, first, rfl, ⟨rfl, -⟩, c, rfl, hc⟩, -, hmore⟩, rfl, -⟩ :
    capitalised.Fits a.reverse hit.matched rest := hkeeps.fits
  rw [String.toList_ofList, hword]
  simp only [List.nil_append, List.singleton_append, List.append_nil]
  have halpha : c.isAlpha = true := Bool.or_eq_true_iff.2 (.inl hc)
  apply isIdentifier_cons
  · simp [isNameStart, halpha]
  · intro d hd
    have hpart := hmore d hd
    simp only [Char.isAlphanum, Bool.or_eq_true, beq_iff_eq] at hpart
    rw [isNameRest, Bool.or_eq_true]
    left
    rcases hpart with (halpha | hdigit) | rfl
    · exact isWord_of_isAlpha halpha
    · exact isWord_of_isDigit hdigit
    · decide

theorem proper_of_mem_bindings {source : String} {binding : Binding} (h : binding ∈ (prepare source).bindings) :
    binding.Proper := by
  rcases mem_of_mem_resolveBindings h with himport | ⟨name, hname, rfl⟩
  · exact proper_of_mem_collectImports himport
  · have hidentifier := isIdentifier_of_mem_detectIdentifiers hname
    exact ⟨hidentifier, .inr ⟨name, rfl, hidentifier⟩⟩

/-! ## The lines of the prelude -/

/-- The line that declares a name, as the runtime of a document writes it. -/
def Binding.line (binding : Binding) : String :=
  "var " ++ binding.name ++ " = __shim(" ++ String.ofList (Json.quote binding.target.word.toList) ++ ");"

theorem not_isNameRest_of_control : ∀ code < 32, isNameRest (Char.ofNat code) = false := by
  decide

/-- A character of an identifier stands for itself in a string. -/
theorem escapeChar_of_isNameRest {c : Char} (h : isNameRest c = true) : Json.escapeChar c = [c] := by
  have hcontrol : 32 ≤ c.toNat := by
    by_contra hlow
    have hnot := not_isNameRest_of_control c.toNat (by omega)
    rw [Char.ofNat_toNat, h] at hnot
    cases hnot
  rw [Json.escapeChar, if_neg (ne_of_passes h (by decide)), if_neg (ne_of_passes h (by decide)), if_pos hcontrol]

theorem quote_identifier {text : List Char} (h : isIdentifier text = true) :
    Json.quote text = '"' :: (text ++ ['"']) := by
  have hescape : text.flatMap Json.escapeChar = text.flatMap fun c => [c] := by
    apply List.flatMap_congr
    intro c hc
    exact escapeChar_of_isNameRest (isNameRest_of_mem h c hc)
  rw [Json.quote, hescape, List.flatMap_singleton']

theorem Binding.Proper.line_eq {binding : Binding} (h : binding.Proper) :
    binding.line = "var " ++ binding.name ++ " = __shim(\"" ++ binding.target.word ++ "\");" := by
  have hquote : Json.quote binding.target.word.toList = '"' :: (binding.target.word.toList ++ ['"']) := by
    rcases h.target with hwhole | ⟨name, hname, hidentifier⟩
    · rw [hwhole]
      decide
    · rw [hname]
      exact quote_identifier hidentifier
  rw [← String.toList_inj, Binding.line, hquote]
  simp

/-! ## The bindings of a source -/

/-- The bindings of a source as declarations: what each of them may hold, and which of the names have one. -/
structure SoundPrelude (source : String) : Prop where
  distinct : ((prepare source).bindings.map Binding.name).Nodup
  proper : ∀ binding ∈ (prepare source).bindings, binding.Proper
  line : ∀ binding ∈ (prepare source).bindings,
    binding.line = "var " ++ binding.name ++ " = __shim(\"" ++ binding.target.word ++ "\");"
  imported : ∀ name ∈ (collectImports source.toList).map Binding.name,
    (prepare source).bindings.find? (·.name == name) = (collectImports source.toList).find? (·.name == name)
  mentioned : ∀ name ∈ detectIdentifiers source.toList,
    name ∈ Shims.collidingNames ∨ name ∉ declaredNames source.toList →
      name ∈ (prepare source).bindings.map Binding.name
  bound : ∀ name ∈ (prepare source).bindings.map Binding.name,
    name ∈ (collectImports source.toList).map Binding.name ∨ name ∈ detectIdentifiers source.toList ∧
      (name ∈ Shims.collidingNames ∨ name ∉ declaredNames source.toList)

theorem bindsMentioned_iff {declared : List String} {name : String} :
    bindsMentioned declared name = true ↔ name ∈ Shims.collidingNames ∨ name ∉ declared := by
  simp [bindsMentioned]

/-- Every source gets a list of bindings that may be written in front of its script as it is. -/
theorem prelude_sound (source : String) : SoundPrelude source := by
  have hnames (name : String) : name ∈ (prepare source).bindings.map Binding.name ↔
      name ∈ (collectImports source.toList).map Binding.name ∨ name ∈ detectIdentifiers source.toList ∧
        (name ∈ Shims.collidingNames ∨ name ∉ declaredNames source.toList) := by
    rw [← bindsMentioned_iff]
    exact mem_names_resolveBindings
  constructor
  case distinct => exact nodup_resolveBindings _ _ _
  case proper => exact fun binding hbinding => proper_of_mem_bindings hbinding
  case line => exact fun binding hbinding => (proper_of_mem_bindings hbinding).line_eq
  case imported =>
    intro name hname
    obtain ⟨binding, hbinding, rfl⟩ := List.mem_map.1 hname
    have hfound : ((collectImports source.toList).find? (·.name == binding.name)).isSome = true :=
      List.find?_isSome.2 ⟨binding, hbinding, beq_self_eq_true _⟩
    obtain ⟨first, hfirst⟩ := Option.isSome_iff_exists.1 hfound
    rw [prepare, find?_resolveBindings, List.find?_append, hfirst, Option.some_or]
  case mentioned => exact fun name hname hneeded => (hnames name).2 (.inr ⟨hname, hneeded⟩)
  case bound => exact fun name hname => (hnames name).1 hname

-- A declared name of the browser is bound all the same, any other declared name is not.
example : (prepare "import * as Charts from 'c';\nconst Text = 1;\nconst Row = 2;\n<Bar/>").bindings.map Binding.line =
    ["var Charts = __shim(\"*\");", "var Text = __shim(\"Text\");", "var Bar = __shim(\"Bar\");"] := by
  decide +kernel

end ComponentBuilder.Preview
