import ComponentBuilder.Proofs.Guard.ImportMatches

/-!
# Import declarations in a source

The rule on imports looks for words between blanks, which a declaration need not have around its braces and
quotes.  A declaration that has them is seen wherever it stands: the search comes to it, unless a match that
began before reaches over it, and then that match either ends with the declaration's own path or has the word
`import` in the path it has taken.
-/

namespace ComponentBuilder.Guard

open Text Markup

/-! ## Declarations -/

/-- An import declaration: its clause if it has one, the blanks in front of its path, and the path in quotes. -/
structure ImportDeclaration where
  clause : Option (List Char)
  gap : List Char
  quote : Char
  path : List Char

namespace ImportDeclaration

/-- A declaration up to the quote in front of its path. -/
def opening (declaration : ImportDeclaration) : List Char :=
  match declaration.clause with
  | none => "import".toList ++ declaration.gap
  | some clause => "import".toList ++ (clause ++ ("from".toList ++ declaration.gap))

def text (declaration : ImportDeclaration) : List Char :=
  declaration.opening ++ declaration.quote :: (declaration.path ++ [declaration.quote])

end ImportDeclaration

/-- A clause between blanks, with no string in it that looks like the path. -/
structure SpacedClause (clause : List Char) : Prop where
  blanks : ∃ c body d, clause = c :: (body ++ [d]) ∧ isBlank c = true ∧ isBlank d = true ∧
    ∃ e ∈ body, isBlank e = false
  quiet : ∀ front link quote back, clause = front ++ (link ++ quote :: back) → Scan.isTagQuote quote = true →
    ¬IsLink link

/-- A declaration with blanks around its clause and in front of its path, which is not empty. -/
structure Spaced (declaration : ImportDeclaration) : Prop where
  clause : ∀ clause, declaration.clause = some clause → SpacedClause clause
  gap_ne : declaration.gap ≠ []
  gap : ∀ c ∈ declaration.gap, isBlank c = true
  quote : Scan.isTagQuote declaration.quote = true
  path_ne : declaration.path ≠ []
  path : ∀ c ∈ declaration.path, Scan.isTagQuote c = false

/-! ## Cutting a text at its quotes -/

variable {captured path before after rest : List Char} {quote quote' quote'' : Char}

theorem path_eq_of_append (hpath : ∀ c ∈ path, Scan.isTagQuote c = false)
    (hcaptured : ∀ c ∈ captured, Scan.isTagQuote c = false) (hquote : Scan.isTagQuote quote = true)
    (hquote' : Scan.isTagQuote quote' = true) (h : captured ++ quote' :: rest = path ++ quote :: after) :
    captured = path := by
  rcases append_cons_eq_append_cons h with ⟨heq, -⟩ | ⟨more, rfl⟩ | ⟨more, rfl⟩
  · exact heq
  · exact absurd (by simp) (not_mem_of_forall_false hcaptured hquote)
  · exact absurd (by simp) (not_mem_of_forall_false hpath hquote')

theorem exists_of_append_plain {front front' back tail : List Char} {c : Char}
    (htail : ∀ d ∈ tail, Scan.isTagQuote d = false) (hc : Scan.isTagQuote c = true)
    (h : front ++ tail = front' ++ c :: back) : ∃ more, front = front' ++ c :: more := by
  rcases append_eq_append_cons h with hfront | ⟨more, -, rfl⟩
  · exact hfront
  · exact absurd (by simp) (not_mem_of_forall_false htail hc)

theorem isTagQuote_eq_false_of_mem_import : ∀ c ∈ "import".toList, Scan.isTagQuote c = false := by
  decide

theorem isTagQuote_eq_false_of_mem_from : ∀ c ∈ "from".toList, Scan.isTagQuote c = false := by
  decide

theorem IsLink.isTagQuote_eq_false {link : List Char} (h : IsLink link) :
    ∀ c ∈ link, Scan.isTagQuote c = false := by
  obtain ⟨gap, gap', rfl, -, -, hgap, hgap'⟩ := h
  simp only [List.mem_append]
  rintro c (hc | hc | hc)
  · exact isTagQuote_eq_false_of_isBlank (hgap c hc)
  · exact isTagQuote_eq_false_of_mem_from c hc
  · exact isTagQuote_eq_false_of_isBlank (hgap' c hc)

/-- A path that was opened before an import and reaches over it has the word in it. -/
theorem import_infix_of_early {inner more : List Char} (hquote : Scan.isTagQuote quote = true)
    (hreach : inner.length ≤ captured.length)
    (h : inner ++ ("import".toList ++ more) = captured ++ quote :: rest) : "import".toList <:+: captured := by
  rw [← List.append_assoc] at h
  rcases append_eq_append_cons h with ⟨y, hy⟩ | ⟨y, rfl, -⟩
  · exfalso
    rcases append_eq_append_cons hy with ⟨z, rfl⟩ | ⟨z, -, hz⟩
    · simp only [List.length_append, List.length_cons] at hreach
      omega
    · exact not_mem_of_forall_false isTagQuote_eq_false_of_mem_import hquote (by rw [hz]; simp)
  · exact ⟨inner, y, rfl⟩

/-- A match that has begun to take its path before an import that it reaches over takes the word into it. -/
theorem import_infix_of_begun {head begun part more : List Char}
    (hpart : part = head ++ quote :: (captured ++ [quote'])) (hquote' : Scan.isTagQuote quote' = true)
    (hbefore : before = head ++ quote :: begun)
    (htext : before ++ ("import".toList ++ more) = part ++ rest)
    (hreach : before = [] ∨ before.length < part.length) : "import".toList <:+: captured := by
  subst hpart hbefore
  have hlength : begun.length ≤ captured.length := by
    have hshort := hreach.resolve_left (by simp)
    simp only [List.length_append, List.length_cons, List.length_nil] at hshort
    omega
  exact import_infix_of_early hquote' hlength (by simpa using htext)

/-- The word `import` does not begin again in itself or in blanks. -/
theorem eq_nil_of_import_gap {gap front more : List Char} (hgap : ∀ c ∈ gap, isBlank c = true)
    (h : "import".toList ++ gap = front ++ ("import".toList ++ more)) : front = [] := by
  have hword : "import".toList = 'i' :: "mport".toList := by simp
  have htail : 'i' ∉ "mport".toList := by decide
  have hblank : 'i' ∉ gap := fun hmem => absurd (hgap 'i' hmem) (by decide)
  cases front with
  | nil => rfl
  | cons c front =>
      exfalso
      rw [hword] at h
      have hsplit : "mport".toList ++ gap = front ++ ('i' :: "mport".toList ++ more) := (List.cons.inj h).2
      have hmem : 'i' ∈ "mport".toList ++ gap := by
        rw [hsplit]
        simp
      rcases List.mem_append.1 hmem with hmem | hmem
      · exact htail hmem
      · exact hblank hmem

/-! ## Matches over a declaration with a clause -/

section Clause

variable {gap clause link quoted body part more : List Char} {c d : Char}

theorem exists_front_of_gap (hgap : ∀ c ∈ gap, isBlank c = true) (hbody : ∃ e ∈ body, isBlank e = false)
    (h : before ++ ("import".toList ++ c :: body) ++ after = "import".toList ++ gap ++ rest) :
    ∃ front, before ++ ("import".toList ++ c :: body) = "import".toList ++ gap ++ front := by
  rcases List.append_eq_append_iff.1 h with ⟨inner, hinner, -⟩ | ⟨inner, hinner, -⟩
  · exfalso
    obtain ⟨e, he, hblank⟩ := hbody
    rw [List.append_assoc, List.append_assoc] at hinner
    obtain rfl := eq_nil_of_import_gap hgap hinner
    rw [List.nil_append, List.append_cancel_left_eq] at hinner
    have hsame := hgap e (by rw [hinner]; simp [he])
    rw [hblank] at hsame
    cases hsame
  · exact ⟨inner, hinner⟩

/-- A match ends its clause no later than a declaration that it could take the path of. -/
theorem exists_inner_of_first (hmatch : ClauseMatch gap clause link quoted part rest captured)
    {front link' quoted' : List Char} (hlink : IsLink (d :: link')) (hquoted : IsQuoted path quoted')
    (h : front ++ (d :: link' ++ (quoted' ++ after)) = clause ++ (link ++ (quoted ++ rest))) :
    ∃ inner, front = clause ++ inner := by
  rcases append_eq_append_cons h.symm with ⟨inner, rfl⟩ | ⟨inner, hfront, -⟩
  · exfalso
    rw [List.append_assoc, List.append_cancel_left_eq] at h
    exact hmatch.first front d inner rfl _ quoted' path after h.symm hlink hquoted
  · exact ⟨inner, hfront⟩

theorem IsLink.not_mem (h : IsLink link) : 't' ∉ link := by
  obtain ⟨gap, gap', rfl, -, -, hgap, hgap'⟩ := h
  have hfrom : 't' ∉ "from".toList := by decide
  have hblanks {gap : List Char} (hgap : ∀ c ∈ gap, isBlank c = true) : 't' ∉ gap :=
    fun hmem => absurd (hgap 't' hmem) (by decide)
  simp only [List.mem_append, not_or]
  exact ⟨hblanks hgap, hfrom, hblanks hgap'⟩

/-- A link that begins before a clause does not reach into it. -/
theorem suffix_of_link (hlink : IsLink link) {front inside : List Char}
    (h : before ++ "import".toList ++ inside = front ++ link) : link <:+ inside := by
  have hword : "import".toList = "impor".toList ++ ['t'] := by simp
  rcases List.append_eq_append_iff.1 h with ⟨x, -, rfl⟩ | ⟨x, hx, rfl⟩
  · exact List.suffix_append x link
  · rcases List.eq_nil_or_concat x with rfl | ⟨x, e, rfl⟩
    · exact List.suffix_rfl
    · exfalso
      rw [hword, ← List.append_assoc, List.concat_eq_append, ← List.append_assoc] at hx
      obtain ⟨-, hlast⟩ := List.append_inj' hx rfl
      obtain rfl : 't' = e := (List.cons.inj hlast).1
      exact hlink.not_mem (by simp)

/-- A quote in front of a declaration's link is in front of the declaration, or in its clause. -/
theorem early_or_inside (hquote : Scan.isTagQuote quote = true) (hlink : IsLink link)
    {front : List Char} (h : before ++ ("import".toList ++ body) = front ++ link ++ quote :: more) :
    (∃ inner, before = front ++ link ++ quote :: inner) ∨
      ∃ inner, body = inner ++ (link ++ quote :: more) := by
  rcases append_eq_append_cons h with hbefore | ⟨x, hx, hopening⟩
  · exact .inl hbefore
  · right
    rcases append_eq_append_cons hopening with ⟨z, hz⟩ | ⟨inside, rfl, rfl⟩
    · exact absurd (by rw [hz]; simp) (not_mem_of_forall_false isTagQuote_eq_false_of_mem_import hquote)
    · rw [← List.append_assoc] at hx
      obtain ⟨inner, rfl⟩ := suffix_of_link hlink hx.symm
      exact ⟨inner, by simp⟩

/-- A match with a clause that reaches over a spaced clause takes the path that follows it, or one with the word
`import` in it. -/
theorem captured_of_clauseMatch (hmatch : ClauseMatch gap clause link quoted part rest captured)
    {link' : List Char} (hbody : ∃ e ∈ body, isBlank e = false)
    (hquiet : ∀ front link quote back, c :: body = front ++ (link ++ quote :: back) →
      Scan.isTagQuote quote = true → ¬IsLink link)
    (hlink : IsLink (d :: link')) (hquote : Scan.isTagQuote quote = true) (hpath_ne : path ≠ [])
    (hpath : ∀ e ∈ path, Scan.isTagQuote e = false)
    (htext : before ++ ("import".toList ++ c :: body) ++ (d :: link' ++ quote :: (path ++ quote :: after)) =
      part ++ rest) (hreach : before = [] ∨ before.length < part.length) :
    captured = path ∨ "import".toList <:+: captured := by
  obtain ⟨opened, closed, hopened, hquote', hquote'', -, hcaptured⟩ := hmatch.isQuoted
  have hquoted : IsQuoted path (quote :: (path ++ [quote])) := ⟨quote, quote, rfl, hquote, hquote, hpath_ne, hpath⟩
  have hcut : before ++ ("import".toList ++ c :: body) ++ (d :: link' ++ quote :: (path ++ quote :: after)) =
      "import".toList ++ gap ++ (clause ++ (link ++ (quoted ++ rest))) := by
    rw [htext, hmatch.part_eq]
    simp only [List.append_assoc]
  obtain ⟨front, hfront⟩ := exists_front_of_gap hmatch.gap_blank hbody hcut
  have hafter : front ++ (d :: link' ++ quote :: (path ++ quote :: after)) =
      clause ++ (link ++ (quoted ++ rest)) := by
    rw [hfront, List.append_assoc, List.append_cancel_left_eq] at hcut
    exact hcut
  have hfirst : front ++ (d :: link' ++ (quote :: (path ++ [quote]) ++ after)) =
      clause ++ (link ++ (quoted ++ rest)) := by
    simpa using hafter
  obtain ⟨inner, rfl⟩ := exists_inner_of_first hmatch hlink hquoted hfirst
  have hlinks : inner ++ d :: link' ++ quote :: (path ++ quote :: after) =
      link ++ opened :: (captured ++ closed :: rest) := by
    rw [hopened, List.append_assoc, List.append_cancel_left_eq] at hafter
    simpa using hafter
  rcases append_cons_eq_append_cons hlinks with ⟨-, -, hsame⟩ | ⟨more, hmore⟩ | ⟨more, hmore⟩
  · exact .inl (path_eq_of_append hpath hcaptured hquote hquote'' hsame.symm)
  · -- The match has opened its path early: before the declaration, as no link in the clause has a quote after it.
    right
    obtain ⟨more, rfl⟩ := exists_of_append_plain hlink.isTagQuote_eq_false hquote' hmore
    have hstart : before ++ ("import".toList ++ c :: body) =
        "import".toList ++ gap ++ clause ++ link ++ opened :: more := by
      rw [hfront]
      simp only [List.append_assoc]
    rcases early_or_inside hquote' hmatch.isLink hstart with ⟨begun, hbefore⟩ | ⟨begun, hbegun⟩
    · have hpart : part = "import".toList ++ gap ++ clause ++ link ++ opened :: (captured ++ [closed]) := by
        rw [hmatch.part_eq, hopened]
        simp only [List.append_assoc]
      rw [List.append_assoc, List.append_assoc] at htext
      exact import_infix_of_begun hpart hquote'' hbefore htext hreach
    · exact absurd hmatch.isLink (hquiet begun link opened more hbegun hquote')
  · have hfree := hmatch.isLink.isTagQuote_eq_false quote (by rw [hmore]; simp)
    rw [hquote] at hfree
    cases hfree

end Clause

/-! ## Matches over a declaration without a clause -/

/-- A match without a clause that reaches over a declaration without a clause takes its path, or one with the word
`import` in it. -/
theorem captured_of_bareMatch {gap gap' quoted part : List Char} (hmatch : BareMatch gap quoted part captured)
    (hgap' : ∀ c ∈ gap', isBlank c = true) (hquote : Scan.isTagQuote quote = true)
    (hpath : ∀ c ∈ path, Scan.isTagQuote c = false)
    (htext : before ++ ("import".toList ++ gap') ++ quote :: (path ++ quote :: after) = part ++ rest)
    (hreach : before = [] ∨ before.length < part.length) :
    captured = path ∨ "import".toList <:+: captured := by
  obtain ⟨opened, closed, hopened, hquote', hquote'', -, hcaptured⟩ := hmatch.isQuoted
  have hplain {gap : List Char} (hgap : ∀ c ∈ gap, isBlank c = true) :
      ∀ c ∈ "import".toList ++ gap, Scan.isTagQuote c = false := by
    intro c hc
    rcases List.mem_append.1 hc with hc | hc
    · exact isTagQuote_eq_false_of_mem_import c hc
    · exact isTagQuote_eq_false_of_isBlank (hgap c hc)
  have hpart : part = "import".toList ++ gap ++ opened :: (captured ++ [closed]) := by
    rw [hmatch.part_eq, hopened, List.append_assoc]
  have hcut : before ++ ("import".toList ++ gap') ++ quote :: (path ++ quote :: after) =
      "import".toList ++ gap ++ opened :: (captured ++ closed :: rest) := by
    rw [htext, hpart]
    simp only [List.append_assoc, List.cons_append, List.nil_append]
  rcases append_cons_eq_append_cons hcut with ⟨-, -, hsame⟩ | ⟨more, hmore⟩ | ⟨more, hmore⟩
  · exact .inl (path_eq_of_append hpath hcaptured hquote hquote'' hsame.symm)
  · obtain ⟨begun, hbefore⟩ := exists_of_append_plain (hplain hgap') hquote' hmore
    rw [List.append_assoc, List.append_assoc] at htext
    exact .inr (import_infix_of_begun hpart hquote'' hbefore htext hreach)
  · have hfree := hplain hmatch.gap_blank quote (by rw [hmore]; simp)
    rw [hquote] at hfree
    cases hfree

/-! ## Matches at a declaration -/

theorem fits_quoted {declaration : ImportDeclaration} (h : Spaced declaration) (behind rest : List Char) :
    pathPattern.Fits behind (declaration.quote :: (declaration.path ++ [declaration.quote])) rest :=
  fits_pathPattern ⟨_, _, rfl, h.quote, h.quote, h.path_ne, h.path⟩ behind rest

theorem fits_import {behind : List Char} (hbehind : behind.head?.any isWord = false) (rest : List Char) :
    (Pattern.edge ++ .text "import").Fits behind "import".toList rest :=
  Pattern.fits_edge_text (by decide) hbehind

theorem fits_bareImportPattern {declaration : ImportDeclaration} (h : Spaced declaration)
    (hclause : declaration.clause = none) {behind : List Char} (hbehind : behind.head?.any isWord = false)
    (rest : List Char) : bareImportPattern.Fits behind declaration.text rest := by
  refine ⟨"import".toList ++ declaration.gap, _, ?_, ⟨"import".toList, declaration.gap, rfl, fits_import hbehind _,
    fits_gap_iff.2 ⟨h.gap_ne, h.gap⟩⟩, fits_quoted h _ rest⟩
  rw [ImportDeclaration.text, ImportDeclaration.opening, hclause]

theorem fits_importPattern {declaration : ImportDeclaration} (h : Spaced declaration) {body : List Char} {c d : Char}
    (hclause : declaration.clause = some (c :: (body ++ [d]))) (hc : isBlank c = true) (hd : isBlank d = true)
    {behind : List Char} (hbehind : behind.head?.any isWord = false) (rest : List Char) :
    importPattern.Fits behind declaration.text rest := by
  have hblank {c : Char} (hc : isBlank c = true) (behind rest : List Char) : Pattern.gap.Fits behind [c] rest :=
    fits_gap_iff.2 ⟨by simp, by simpa using hc⟩
  refine ⟨"import".toList ++ [c] ++ body ++ [d] ++ "from".toList ++ declaration.gap, _, ?_,
    ⟨"import".toList ++ [c] ++ body ++ [d] ++ "from".toList, declaration.gap, rfl,
      ⟨"import".toList ++ [c] ++ body ++ [d], "from".toList, rfl,
        ⟨"import".toList ++ [c] ++ body, [d], rfl,
          ⟨"import".toList ++ [c], body, rfl,
            ⟨"import".toList, [c], rfl, fits_import hbehind _, hblank hc _ _⟩, fun _ _ => rfl⟩,
          hblank hd _ _⟩,
        Pattern.fits_chars_self _ _ _⟩,
      fits_gap_iff.2 ⟨h.gap_ne, h.gap⟩⟩,
    fits_quoted h _ rest⟩
  rw [ImportDeclaration.text, ImportDeclaration.opening, hclause]
  simp

theorem text_ne_nil (declaration : ImportDeclaration) : declaration.text ≠ [] := by
  simp [ImportDeclaration.text]

/-! ## What the rule reports -/

/-- The search for imports takes the path of a spaced declaration, or one with the word `import` in it. -/
theorem exists_captured {declaration : ImportDeclaration} (h : Spaced declaration) {before : List Char}
    (hbefore : before.getLast?.any isWord = false) (after : List Char) :
    ∃ captured ∈ importPattern.captures (before ++ (declaration.text ++ after)) ++
        bareImportPattern.captures (before ++ (declaration.text ++ after)),
      captured = declaration.path ∨ "import".toList <:+: captured := by
  have hbehind : before.reverse.head?.any isWord = false := by rwa [List.head?_reverse]
  cases hclause : declaration.clause with
  | none =>
      obtain ⟨front, back, part, rest, captured, rfl, htext, hreach, hfinds, hmem⟩ :=
        Pattern.captures_of_fits (fits_bareImportPattern h hclause hbehind after) (text_ne_nil declaration)
      obtain ⟨gap, quoted, hmatch⟩ := exists_bareMatch hfinds
      have hcut : back ++ ("import".toList ++ declaration.gap) ++
          declaration.quote :: (declaration.path ++ declaration.quote :: after) = part ++ rest := by
        rw [← htext, ImportDeclaration.text, ImportDeclaration.opening, hclause]
        simp
      exact ⟨captured, List.mem_append_right _ hmem,
        captured_of_bareMatch hmatch h.gap h.quote h.path hcut hreach⟩
  | some clause =>
      obtain ⟨⟨c, body, d, rfl, hc, hd, hbody⟩, hquiet⟩ := h.clause clause hclause
      obtain ⟨front, back, part, rest, captured, rfl, htext, hreach, hfinds, hmem⟩ :=
        Pattern.captures_of_fits (fits_importPattern h hclause hc hd hbehind after) (text_ne_nil declaration)
      obtain ⟨gap, clause, link, quoted, hmatch⟩ := exists_clauseMatch hfinds
      have hlink : IsLink (d :: ("from".toList ++ declaration.gap)) :=
        ⟨[d], declaration.gap, rfl, by simp, h.gap_ne, by simpa using hd, h.gap⟩
      have hcut : back ++ ("import".toList ++ c :: body) ++ (d :: ("from".toList ++ declaration.gap) ++
          declaration.quote :: (declaration.path ++ declaration.quote :: after)) = part ++ rest := by
        rw [← htext, ImportDeclaration.text, ImportDeclaration.opening, hclause]
        simp
      refine ⟨captured, List.mem_append_left _ hmem,
        captured_of_clauseMatch hmatch hbody ?_ hlink h.quote h.path_ne h.path hcut hreach⟩
      intro inner link quote more hinner
      exact hquiet inner link quote (more ++ [d]) (by rw [← List.cons_append, hinner]; simp)

theorem not_import_infix_of_mem_importPaths :
    ∀ path ∈ Vocabulary.importPaths, ¬"import".toList <:+: path.toList := by
  decide +kernel

/--
The rule on imports sees every spaced declaration of a path outside the vocabulary, whatever stands before and
after it: it reports that path, or one with the word `import` in it.
-/
theorem import_reported {declaration : ImportDeclaration} (h : Spaced declaration)
    (hpath : Vocabulary.importPaths.contains (String.ofList declaration.path) = false) {before : List Char}
    (hbefore : before.getLast?.any isWord = false) (after : List Char) :
    ∃ path, .importPath path ∈ Rule.importWhitelist.check (before ++ (declaration.text ++ after)) ∧
      (path = String.ofList declaration.path ∨ "import".toList <:+: path.toList) := by
  obtain ⟨captured, hmem, hcaptured⟩ := exists_captured h hbefore after
  have hsame : (String.ofList captured).toList = captured := String.toList_ofList
  have hunknown : String.ofList captured ∉ Vocabulary.importPaths := by
    rcases hcaptured with rfl | hword
    · simpa using hpath
    · exact fun hknown => not_import_infix_of_mem_importPaths _ hknown (by rwa [hsame])
  refine ⟨String.ofList captured, ?_, hcaptured.imp (congrArg String.ofList) fun hword => by rwa [hsame]⟩
  simp only [Rule.check, importPaths, List.mem_map, List.mem_filter, mem_distinct]
  exact ⟨String.ofList captured, ⟨⟨captured, hmem, rfl⟩, by simpa using hunknown⟩, rfl⟩

/-- A clause between blanks in which there is no string. -/
theorem spacedClause_of_plain {body : List Char} {c d : Char} (hc : isBlank c = true) (hd : isBlank d = true)
    (hbody : ∃ e ∈ body, isBlank e = false) (hplain : ∀ e ∈ body, Scan.isTagQuote e = false) :
    SpacedClause (c :: (body ++ [d])) := by
  refine ⟨⟨c, body, d, rfl, hc, hd, hbody⟩, fun front link quote back hclause hquote _ => ?_⟩
  have hmem : quote ∈ c :: (body ++ [d]) := by
    rw [hclause]
    simp
  simp only [List.mem_cons, List.mem_append, List.not_mem_nil, or_false] at hmem
  rcases hmem with rfl | hmem | rfl
  · rw [isTagQuote_eq_false_of_isBlank hc] at hquote
    cases hquote
  · rw [hplain quote hmem] at hquote
    cases hquote
  · rw [isTagQuote_eq_false_of_isBlank hd] at hquote
    cases hquote

/-- The declaration of a client for requests. -/
def clientImport : ImportDeclaration where
  clause := some (' ' :: ("axios".toList ++ [' ']))
  gap := [' ']
  quote := '"'
  path := "axios".toList

theorem spaced_clientImport : Spaced clientImport where
  clause := by
    rintro _ ⟨⟩
    exact spacedClause_of_plain (by decide) (by decide) ⟨'a', by decide, by decide⟩ (by decide)
  gap_ne := by decide
  gap := by decide
  quote := by decide
  path_ne := by decide
  path := by decide

/-- The client is reported on a line after a comment that begins an import of its own. -/
theorem import_reported_sample : Vocabulary.importPaths.contains (String.ofList clientImport.path) = false ∧
    ∃ path, .importPath path ∈ Rule.importWhitelist.check
        ("// import it from 'here\n".toList ++ (clientImport.text ++ ";\n".toList)) ∧
      (path = String.ofList clientImport.path ∨ "import".toList <:+: path.toList) := by
  have hpath : Vocabulary.importPaths.contains (String.ofList clientImport.path) = false := by
    decide +kernel
  exact ⟨hpath, import_reported spaced_clientImport hpath (by decide +kernel) ";\n".toList⟩

/-- Declarations of the client that are not spaced, and one with a string in its clause that looks like the path. -/
def unseenImports : List ImportDeclaration :=
  [{ clientImport with gap := [] }, { clientImport with clause := none, gap := [] },
    { clientImport with clause := some "\x7bget\x7d".toList },
    { clientImport with clause := some " \x7b \" from 'react' \" as get \x7d ".toList }]

/-- The client is outside the vocabulary, and the rule reports nothing for them. -/
theorem import_unreported :
    (unseenImports.map fun declaration => Vocabulary.importPaths.contains (String.ofList declaration.path)) =
        [false, false, false, false] ∧
      (unseenImports.map fun declaration => Rule.importWhitelist.check declaration.text) = [[], [], [], []] := by
  decide +kernel

end ComponentBuilder.Guard
