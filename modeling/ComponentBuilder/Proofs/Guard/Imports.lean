import ComponentBuilder.Guard.Rule
import ComponentBuilder.Proofs.Guard.Frame
import ComponentBuilder.Proofs.Markup.Header
import ComponentBuilder.Proofs.Markup.Rewriting

/-!
# The imports of a canonical module

The rule on imports reads the header of a canonical module statement by statement.  It finds the paths of
the header, and then what it finds in the text of the tree alone.
-/

namespace ComponentBuilder.Guard

open Text Markup

/-! ## Import statements -/

/-- An import statement that is read as one: its clause and its path end where they should. -/
structure PlainImport (statement : ImportStatement) : Prop where
  head : statement.clause.head?.any (fun c => !isBlank c && !Scan.isTagQuote c) = true
  last : statement.clause.getLast?.all (fun c => !isBlank c) = true
  clause : statement.clause.IsChain fun c d => d = 'f' → isBlank c = false
  nonempty : statement.path ≠ []
  path : ∀ c ∈ statement.path, Scan.isTagQuote c = false
  alone : ¬"import".toList <:+: statement.text.tail

instance : DecidablePred PlainImport := fun _ =>
  decidable_of_iff (_ ∧ _ ∧ _ ∧ _ ∧ _ ∧ _)
    ⟨fun ⟨head, last, clause, nonempty, path, alone⟩ => ⟨head, last, clause, nonempty, path, alone⟩,
      fun h => ⟨h.head, h.last, h.clause, h.nonempty, h.path, h.alone⟩⟩

theorem plainImport_of_mem_headerImports : ∀ statement ∈ headerImports, PlainImport statement := by
  decide +kernel

/-- An import statement up to the quote after its path. -/
def matchedImport (statement : ImportStatement) : List Char :=
  "import".toList ++ ' ' :: (statement.clause ++
    ' ' :: ("from".toList ++ ' ' :: '\'' :: (statement.path ++ ['\''])))

theorem text_eq_matchedImport (statement : ImportStatement) :
    statement.text = matchedImport statement ++ [';'] := by
  have hopen : "import ".toList = "import".toList ++ [' '] := by simp
  have hfrom : " from '".toList = ' ' :: ("from".toList ++ [' ', '\'']) := by simp
  have hclose : "';".toList = ['\'', ';'] := by simp
  unfold ImportStatement.text matchedImport
  rw [hopen, hfrom, hclose]
  generalize "import".toList = first
  generalize "from".toList = second
  simp only [List.append_assoc, List.cons_append, List.nil_append]

/-! ## Matching an import statement -/

variable {behind rest captured : List Char} {offset : Nat}

theorem run_gap {α : Type} {k : Spot → Option α} {result : α} (hrest : Stops isBlank rest)
    (hk : k (Pattern.after behind offset [' '] rest captured) = some result) :
    Pattern.gap.run k ⟨behind, offset, ' ' :: rest, captured⟩ = some result :=
  @Pattern.run_many _ _ 1 isBlank behind [' '] rest captured offset result (by simp) (by decide) hrest hk

theorem run_pathPattern {path : List Char} (hne : path ≠ [])
    (hpath : ∀ c ∈ path, Scan.isTagQuote c = false) :
    pathPattern.run some ⟨behind, offset, '\'' :: (path ++ '\'' :: rest), captured⟩ =
      some (Pattern.after behind offset ('\'' :: (path ++ ['\''])) rest path) := by
  have hquote : Scan.isTagQuote '\'' = true := by decide
  have hlength : 1 ≤ path.length := List.length_pos_iff.2 hne
  have hinside : ∀ c ∈ path, (!Scan.isTagQuote c) = true := by
    intro c hc
    rw [hpath c hc]
    rfl
  have hstop : Stops (!Scan.isTagQuote ·) ('\'' :: rest) := stops_cons.2 (by simp [hquote])
  have hclose (kept : List Char) :
      quotePattern.run some (Pattern.after ('\'' :: behind) (offset + 1) path ('\'' :: rest) kept) =
        some (Pattern.after behind offset ('\'' :: (path ++ ['\''])) rest kept) := by
    rw [Pattern.after_cons]
    simp [quotePattern, Pattern.run, Pattern.after, Spot.next, hquote, Nat.add_assoc]
  have hkept : (Pattern.capture (.many 1 (!Scan.isTagQuote ·))).run (fun last => quotePattern.run some last)
      ⟨'\'' :: behind, offset + 1, path ++ '\'' :: rest, captured⟩ =
        some (Pattern.after behind offset ('\'' :: (path ++ ['\''])) rest path) := by
    rw [Pattern.run]
    apply Pattern.run_many hlength hinside hstop
    have htext := Pattern.textTo_after ('\'' :: behind) path ('\'' :: rest) ('\'' :: rest) captured captured
      (offset + 1)
    rw [htext]
    exact hclose path
  have hopen : pathPattern.run some ⟨behind, offset, '\'' :: (path ++ '\'' :: rest), captured⟩ =
      (Pattern.capture (.many 1 (!Scan.isTagQuote ·))).run (fun last => quotePattern.run some last)
        ⟨'\'' :: behind, offset + 1, path ++ '\'' :: rest, captured⟩ := rfl
  rw [hopen, hkept]

/-- What follows the clause of an import. -/
def runFrom (spot : Spot) : Option Spot :=
  Pattern.gap.run (fun word => (Pattern.text "from").run
    (fun blank => Pattern.gap.run (fun path => pathPattern.run some path) blank) word) spot

theorem runFrom_eq {path : List Char} (hne : path ≠ []) (hpath : ∀ c ∈ path, Scan.isTagQuote c = false) :
    runFrom ⟨behind, offset, ' ' :: ("from".toList ++ ' ' :: '\'' :: (path ++ '\'' :: rest)), captured⟩ =
      some (Pattern.after behind offset (' ' :: ("from".toList ++ ' ' :: '\'' :: (path ++ ['\'']))) rest path) := by
  have hblank : isBlank '\'' = false := by decide
  have hf : isBlank 'f' = false := by decide
  have hword : "from".toList = 'f' :: "rom".toList := by simp
  have hpathPart := @run_pathPattern (' ' :: ("from".toList.reverse ++ ' ' :: behind)) rest captured
    (offset + 1 + "from".toList.length + 1) path hne hpath
  apply run_gap
  · rw [hword]
    exact stops_cons.2 hf
  · rw [Pattern.text]
    refine (Pattern.run_chars "from".toList (' ' :: behind) _ captured (offset + 1)).trans ?_
    apply run_gap (stops_cons.2 hblank)
    rw [Pattern.after_cons, Pattern.after_after, Pattern.after_cons] at hpathPart
    exact hpathPart

/-- The word that ends a clause does not stand inside of it. -/
theorem run_from_eq_none {k : Spot → Option Spot} {clause : List Char} (hne : clause ≠ [])
    (hlast : clause.getLast?.all (fun c => !isBlank c) = true)
    (hclause : clause.IsChain fun c d => d = 'f' → isBlank c = false) :
    Pattern.gap.run (fun word => (Pattern.text "from").run k word) ⟨behind, offset, clause ++ rest, captured⟩ =
      none := by
  have hword : "from".toList = 'f' :: "rom".toList := by simp
  have hend {front : List Char} {c : Char} (h : clause = front ++ [c]) : isBlank c = false := by
    simpa [h] using hlast
  cases hrun : Pattern.gap.run (fun word => (Pattern.text "from").run k word)
      ⟨behind, offset, clause ++ rest, captured⟩ with
  | none => rfl
  | some result =>
      exfalso
      obtain ⟨blanks, tail, captured', htext, ⟨hlength, hblanks⟩, hfrom⟩ := Pattern.fits_of_run hrun
      obtain ⟨word, more, captured'', htail, hfits, -⟩ := Pattern.fits_of_run hfrom
      have htext : clause ++ rest = blanks ++ tail := htext
      have hf : tail = 'f' :: ("rom".toList ++ more) := by
        rw [Pattern.fits_chars hfits, hword] at htail
        exact htail
      rcases List.eq_nil_or_concat blanks with rfl | ⟨front, c, rfl⟩
      · simp at hlength
      · have hc : isBlank c = true := hblanks c (by simp)
        rw [List.concat_eq_append] at htext
        rcases List.append_eq_append_iff.1 htext with ⟨inner, hinner, -⟩ | ⟨inner, hinner, hrest⟩
        · rcases List.eq_nil_or_concat clause with rfl | ⟨before, d, rfl⟩
          · exact hne rfl
          · have hd : isBlank d = true := hblanks d (by simp [hinner])
            rw [hend List.concat_eq_append] at hd
            cases hd
        · cases inner with
          | nil =>
              rw [hend (by rw [hinner, List.append_nil])] at hc
              cases hc
          | cons d inner =>
              rw [hf] at hrest
              obtain ⟨rfl, -⟩ := List.cons.inj hrest
              have hpair := List.isChain_iff_forall_rel_of_append_cons_cons.1 hclause
                (hinner.trans (List.append_assoc front [c] _)) rfl
              rw [hpair] at hc
              cases hc

theorem PlainImport.exists_clause_eq {statement : ImportStatement} (h : PlainImport statement) :
    ∃ c more, statement.clause = c :: more ∧ isBlank c = false ∧ Scan.isTagQuote c = false := by
  have hhead := h.head
  cases hclause : statement.clause with
  | nil => simp [hclause] at hhead
  | cons c more =>
      simp only [hclause, List.head?_cons, Option.any_some, Bool.and_eq_true, Bool.not_eq_true'] at hhead
      exact ⟨c, more, rfl, hhead⟩

theorem matchedImport_append (statement : ImportStatement) (rest : List Char) :
    matchedImport statement ++ rest = "import".toList ++ (' ' :: (statement.clause ++
      (' ' :: ("from".toList ++ ' ' :: '\'' :: (statement.path ++ '\'' :: rest))))) := by
  unfold matchedImport
  generalize "import".toList = first
  generalize "from".toList = second
  simp only [List.append_assoc, List.cons_append, List.nil_append]

theorem matchAt?_importPattern {statement : ImportStatement} (h : PlainImport statement)
    (hbehind : behind.head?.any isWord = false) :
    importPattern.matchAt? ⟨behind, offset, matchedImport statement ++ rest, []⟩ =
      some (Pattern.after behind offset (matchedImport statement) rest statement.path) := by
  obtain ⟨c, more, hclause, hhead, -⟩ := h.exists_clause_eq
  have hword : "import".toList = 'i' :: "mport".toList := by simp
  have hrun (spot : Spot) : importPattern.matchAt? spot = Pattern.edge.run (fun word =>
      (Pattern.text "import").run (fun blank => Pattern.gap.run
        (fun clause => (Pattern.few fun _ => true).run runFrom clause) blank) word) spot := rfl
  have hedge : Spot.atEdge ⟨behind, offset, matchedImport statement ++ rest, []⟩ = true := by
    rw [matchedImport_append, hword]
    have hi : isWord 'i' = true := by decide
    simp [Spot.atEdge, hbehind, hi]
  rw [hrun, Pattern.run, if_pos hedge, matchedImport_append, Pattern.text]
  refine (Pattern.run_chars "import".toList behind _ [] offset).trans ?_
  apply run_gap
  · rw [hclause]
    exact stops_cons.2 hhead
  · apply Pattern.creep_append (fun _ _ => rfl)
    · intro a b hsplit hb
      apply run_from_eq_none hb
      · have hlast := h.last
        rwa [hsplit, List.getLast?_append_of_ne_nil _ hb] at hlast
      · have hchain := h.clause
        rw [hsplit] at hchain
        exact (List.isChain_append.1 hchain).2.1
    · refine (runFrom_eq h.nonempty h.path).trans ?_
      rw [Pattern.after_after, Pattern.after_after]
      refine congrArg some ((Pattern.after_after behind offset ("import".toList ++ [' ']) _ rest _).trans ?_)
      rw [List.append_assoc]
      rfl

/-- A bare import has a quote where an import with a clause has the clause. -/
theorem matchAt?_bareImportPattern {statement : ImportStatement} (h : PlainImport statement) :
    bareImportPattern.matchAt? ⟨behind, offset, matchedImport statement ++ rest, []⟩ = none := by
  obtain ⟨c, more, hclause, hblank, hquote⟩ := h.exists_clause_eq
  cases hmatch : bareImportPattern.matchAt? ⟨behind, offset, matchedImport statement ++ rest, []⟩ with
  | none => rfl
  | some last =>
      exfalso
      obtain ⟨part, tail, captured, htext, ⟨front, path, rfl, ⟨first, blanks, rfl,
        ⟨edge, word, rfl, ⟨rfl, -⟩, hword⟩, hblanks⟩, ⟨opening, closing, rfl, ⟨quote, body, rfl, ⟨d, rfl, hd⟩, -⟩, -⟩⟩, -⟩ :=
        Pattern.fits_of_run hmatch
      have htext : matchedImport statement ++ rest = (([] ++ word ++ blanks) ++ (([d] ++ body) ++ closing)) ++ tail := htext
      rw [matchedImport_append, hclause, Pattern.fits_chars hword] at htext
      generalize "import".toList = first at htext
      simp only [List.append_assoc, List.cons_append, List.nil_append, List.append_cancel_left_eq] at htext
      cases blanks with
      | nil => exact absurd hblanks.1 (by decide)
      | cons e blanks =>
          have htext := (List.cons.inj htext).2
          cases blanks with
          | nil =>
              obtain ⟨rfl, -⟩ := List.cons.inj htext
              rw [hquote] at hd
              cases hd
          | cons f blanks =>
              obtain ⟨rfl, -⟩ := List.cons.inj htext
              rw [hblanks.2 c (by simp)] at hblank
              cases hblank

/-! ## The header -/

theorem begins_importPattern : importPattern.Begins "import".toList := by
  unfold importPattern
  iterate 6 apply Pattern.begins_seq
  exact Pattern.begins_word "import"

theorem begins_bareImportPattern : bareImportPattern.Begins "import".toList := by
  unfold bareImportPattern
  iterate 2 apply Pattern.begins_seq
  exact Pattern.begins_word "import"

/-- The path of an import up to its closing quote. -/
def openPath : Pattern :=
  quotePattern ++ .capture (.many 1 (!Scan.isTagQuote ·))

theorem endsIn_importPattern : importPattern.EndsIn Scan.isTagQuote :=
  ⟨.edge ++ .text "import" ++ .gap ++ .few (fun _ => true) ++ .gap ++ .text "from" ++ .gap ++ openPath,
    by decide, fun _ _ => rfl⟩

theorem endsIn_bareImportPattern : bareImportPattern.EndsIn Scan.isTagQuote :=
  ⟨.edge ++ .text "import" ++ .gap ++ openPath, by decide, fun _ _ => rfl⟩

/-- Import statements, a line each. -/
def importLines (statements : List ImportStatement) : List Char :=
  statements.flatMap fun statement => statement.text ++ ['\n']

theorem importLines_cons_append (statement : ImportStatement) (statements : List ImportStatement)
    (rest : List Char) : importLines (statement :: statements) ++ rest =
      matchedImport statement ++ (';' :: '\n' :: (importLines statements ++ rest)) := by
  simp [importLines, text_eq_matchedImport]

theorem importLines_eq {statements : List ImportStatement} (h : statements ≠ []) :
    importLines statements = ['\n'].intercalate (statements.map ImportStatement.text) ++ ['\n'] := by
  induction statements with
  | nil => exact absurd rfl h
  | cons statement statements ih =>
      cases statements with
      | nil => simp [importLines]
      | cons next statements =>
          rw [List.map_cons, List.intercalate_cons_of_ne_nil (by simp), List.append_assoc,
            ← ih (by simp)]
          simp [importLines]

theorem capturesFrom_importLines {statements : List ImportStatement}
    (h : ∀ statement ∈ statements, PlainImport statement) (hbehind : behind.head?.any isWord = false) :
    importPattern.capturesFrom 0 behind offset (importLines statements ++ rest) =
      statements.map ImportStatement.path ++ importPattern.capturesFrom 0
        ((importLines statements).reverse ++ behind) (offset + (importLines statements).length) rest := by
  induction statements generalizing behind offset with
  | nil => rfl
  | cons statement statements ih =>
      have hne : matchedImport statement ≠ [] := by simp [matchedImport]
      have hbreak : isWord '\n' = false := by decide
      have hmatch := @matchAt?_importPattern behind (';' :: '\n' :: (importLines statements ++ rest)) offset
        statement (h statement List.mem_cons_self) hbehind
      have hskip := @Pattern.Begins.capturesFrom_append _ _ begins_importPattern [';'] '\n' (by decide)
        (by decide) ((matchedImport statement).reverse ++ behind) (importLines statements ++ rest)
        (offset + (matchedImport statement).length)
      have hmore := @ih ('\n' :: ';' :: ((matchedImport statement).reverse ++ behind))
        (offset + (matchedImport statement).length + 2) (fun other hother => h other (List.mem_cons_of_mem _ hother))
        hbreak
      rw [importLines_cons_append, Pattern.capturesFrom_of_match hne hmatch, List.map_cons, List.cons_append]
      refine congrArg _ (hskip.trans (hmore.trans ?_))
      have hlines := importLines_cons_append statement statements []
      simp only [List.append_nil] at hlines
      rw [hlines]
      congr 2
      · simp
      · simp only [List.length_append, List.length_cons]
        omega

theorem bareCapturesFrom_importLines {statements : List ImportStatement}
    (h : ∀ statement ∈ statements, PlainImport statement) :
    bareImportPattern.capturesFrom 0 behind offset (importLines statements ++ rest) =
      bareImportPattern.capturesFrom 0 ((importLines statements).reverse ++ behind)
        (offset + (importLines statements).length) rest := by
  induction statements generalizing behind offset with
  | nil => rfl
  | cons statement statements ih =>
      have hstatement := h statement List.mem_cons_self
      have hline : importLines (statement :: statements) =
          statement.text ++ '\n' :: importLines statements := by
        simp [importLines]
      have hfirst : statement.text = 'i' :: statement.text.tail := by
        have hword : "import ".toList = 'i' :: "mport ".toList := by simp
        unfold ImportStatement.text
        rw [hword]
        rfl
      have hnone := @matchAt?_bareImportPattern behind (';' :: '\n' :: (importLines statements ++ rest)) offset
        statement hstatement
      have hskip := @Pattern.Begins.capturesFrom_append _ _ begins_bareImportPattern statement.text.tail '\n'
        (by decide) hstatement.alone ('i' :: behind) (importLines statements ++ rest) (offset + 1)
      have hmore := @ih ((statement.text.tail ++ ['\n']).reverse ++ 'i' :: behind)
        (offset + 1 + (statement.text.tail ++ ['\n']).length)
        fun other hother => h other (List.mem_cons_of_mem _ hother)
      rw [← importLines_cons_append, hline, hfirst, List.cons_append, List.cons_append, List.append_assoc,
        List.cons_append] at hnone
      rw [hline, hfirst, List.cons_append, List.cons_append, List.append_assoc, List.cons_append,
        Pattern.capturesFrom_of_none hnone, hskip, hmore]
      congr 1
      · simp
      · simp only [List.length_append, List.length_cons, List.length_nil]
        omega

/-! ## The module around a tree -/

theorem preambleText_eq_importLines :
    preambleText = importLines headerImports ++ (openingLines ++ [' ']) := by
  rw [importLines_eq (by simp [headerImports]), preambleText, headerText, List.append_assoc]
  rfl

variable {p : Pattern}

/-- What an import pattern captures in the text of a tree does not depend on what is around it. -/
theorem capturesFrom_render (hp : p.EndsIn Scan.isTagQuote) (root : Node) (behind : List Char) (offset : Nat) :
    p.capturesFrom 0 (' ' :: behind) offset (root.render ++ footerText) = p.captures root.render := by
  obtain ⟨text, htext⟩ := root.exists_render_eq
  have hbehind : SameSide (' ' :: behind) [] := .inr ⟨rfl, rfl⟩
  have hmodule := @Pattern.EndsIn.capturesFrom_frame _ _ text ('>' :: footerText) offset 0 p _ hp hbehind
    (by decide) (by decide) 0 (Nat.zero_le _)
  have halone := @Pattern.EndsIn.capturesFrom_frame _ _ text ['>'] 0 0 p _ hp (.inl rfl : SameSide [] [])
    (by decide) (by decide) 0 (Nat.zero_le _)
  rw [Pattern.captures_eq, htext, List.append_assoc, List.singleton_append, hmodule, halone]

theorem capturesFrom_openingLines (hp : p.Begins "import".toList) (behind rest : List Char) (offset : Nat) :
    ∃ behind' offset', p.capturesFrom 0 behind offset (openingLines ++ [' '] ++ rest) =
      p.capturesFrom 0 (' ' :: behind') offset' rest := by
  have hskip := @Pattern.Begins.capturesFrom_append _ _ hp openingLines ' ' (by decide) (by decide)
    behind rest offset
  rw [List.append_assoc, List.singleton_append, hskip, List.reverse_concat]
  exact ⟨_, _, rfl⟩

/-- An import with a clause in a canonical module is one of the header, or in the text of the tree. -/
theorem captures_importPattern_moduleText (root : Node) :
    importPattern.captures (moduleText root defaultComponent).toList =
      headerImports.map ImportStatement.path ++ importPattern.captures root.render := by
  have hheader := @capturesFrom_importLines [] (openingLines ++ [' '] ++ (root.render ++ footerText)) 0
    headerImports plainImport_of_mem_headerImports rfl
  obtain ⟨behind, offset, hopening⟩ := capturesFrom_openingLines begins_importPattern
    ((importLines headerImports).reverse ++ []) (root.render ++ footerText) (0 + (importLines headerImports).length)
  rw [Pattern.captures_eq, moduleText_eq_preambleText, preambleText_eq_importLines, List.append_assoc, hheader,
    hopening, capturesFrom_render endsIn_importPattern]

theorem captures_bareImportPattern_moduleText (root : Node) :
    bareImportPattern.captures (moduleText root defaultComponent).toList =
      bareImportPattern.captures root.render := by
  have hheader := @bareCapturesFrom_importLines [] (openingLines ++ [' '] ++ (root.render ++ footerText)) 0
    headerImports plainImport_of_mem_headerImports
  obtain ⟨behind, offset, hopening⟩ := capturesFrom_openingLines begins_bareImportPattern
    ((importLines headerImports).reverse ++ []) (root.render ++ footerText) (0 + (importLines headerImports).length)
  rw [Pattern.captures_eq, moduleText_eq_preambleText, preambleText_eq_importLines, List.append_assoc, hheader,
    hopening, capturesFrom_render endsIn_bareImportPattern]

theorem contains_path_of_mem_headerImports : ∀ statement ∈ headerImports,
    Vocabulary.importPaths.contains (String.ofList statement.path) = true := by
  decide +kernel

end ComponentBuilder.Guard
