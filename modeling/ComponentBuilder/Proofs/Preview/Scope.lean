import ComponentBuilder.Preview.Binding
import ComponentBuilder.Proofs.Guard.Imports

/-!
# What a canonical module imports

The preview reads the imports of a canonical module statement by statement: those of the header, and then what
it finds in the text of the tree alone.  The header names the components, the layout primitives and the icons,
so every member of the vocabulary is in scope whatever the tree uses, but for two kinds: the fragment without
its package, and the icons under their long names.
-/

namespace ComponentBuilder.Preview

open Text Markup Guard

variable {behind rest captured : List Char} {offset : Nat}

/-! ## The parts of an import statement -/

/-- An import statement up to its path. -/
def importOpening : Pattern :=
  lineSpace ++ .optional (.one fun c => c == '+' || c == '-') ++ lineSpace ++ .text "import" ++ .gap ++
    .capture (.few fun c => !Scan.isQuote c && c != ';') ++ .gap ++ .text "from" ++ .gap

/-- An import statement up to the closing quote of its path. -/
def importBody : Pattern :=
  importOpening ++ lineString

theorem run_importStatement {α : Type} (k : Spot → Option α) (spot : Spot) :
    importStatement.run k spot =
      if spot.atLineStart then importBody.run (fun last => codeEnd.run k last) spot else none := by
  unfold importStatement importBody importOpening codeStart
  simp only [Pattern.run_append]
  rw [Pattern.run]

theorem endsIn_importBody : importBody.EndsIn Scan.isTagQuote := by
  refine ⟨importOpening ++ scriptQuote ++ .many 0 (fun c => !Scan.isTagQuote c && c != '\n'), by decide, ?_⟩
  intro α k spot
  unfold importBody lineString scriptQuote
  simp only [Pattern.run_append, Pattern.run]

/-! ## Where a statement begins and ends -/

/-- The marks that may stand before the first word. -/
def isMark (c : Char) : Bool :=
  c == ' ' || c == '\t' || c == '+' || c == '-'

theorem isMark_of_fits_codeStart {part : List Char} (h : codeStart.Fits behind part rest) :
    ∀ c ∈ part, isMark c = true := by
  obtain ⟨_, second, rfl, ⟨_, sign, rfl, ⟨_, first, rfl, ⟨rfl, -⟩, -, hfirst⟩, hsign⟩, -, hsecond⟩ := h
  have hspace {blanks : List Char} (hblanks : ∀ c ∈ blanks, (c == ' ' || c == '\t') = true) :
      ∀ c ∈ blanks, isMark c = true := by
    intro c hc
    simp [isMark, hblanks c hc]
  intro c hc
  rw [List.nil_append, List.mem_append, List.mem_append] at hc
  rcases hc with (hc | hc) | hc
  · exact hspace hfirst c hc
  · rcases hsign with ⟨d, rfl, hd⟩ | rfl
    · obtain rfl := List.mem_singleton.1 hc
      rcases Bool.or_eq_true_iff.1 hd with hd | hd <;> simp [isMark, hd]
    · cases hc
  · exact hspace hsecond c hc

/-- A statement begins with marks and its first word. -/
theorem exists_marks_of_fits {part : List Char} (h : importStatement.Fits behind part rest) :
    ∃ marks, marks ++ "import".toList <+: part ∧ ∀ c ∈ marks, isMark c = true := by
  unfold importStatement at h
  obtain ⟨_, _, rfl, ⟨_, _, rfl, ⟨_, _, rfl, ⟨_, _, rfl, ⟨_, _, rfl, ⟨_, _, rfl, ⟨_, _, rfl,
    ⟨marks, word, rfl, hmarks, hword⟩, -⟩, -⟩, -⟩, -⟩, -⟩, -⟩, -⟩ := h
  rw [Pattern.fits_chars hword]
  refine ⟨marks, ?_, isMark_of_fits_codeStart hmarks⟩
  simp only [List.append_assoc]
  rw [← List.append_assoc marks]
  exact List.prefix_append ..

/-- Blanks that do not end a line. -/
def isLineSpace (c : Char) : Bool :=
  c == ' ' || c == '\t'

/-- What the end of a statement takes of the text after its path. -/
def statementEnd : List Char → List Char
  | [] => []
  | c :: text =>
      if isLineSpace c then c :: statementEnd text
      else if c = ';' then [';'] else []

theorem statementEnd_append (text more : List Char) :
    statementEnd (text ++ '>' :: more) = statementEnd text := by
  induction text with
  | nil => rfl
  | cons c text ih => simp only [List.cons_append, statementEnd, ih]

theorem statementEnd_append_left {blanks left : List Char}
    (hblanks : ∀ c ∈ blanks, isLineSpace c = true) :
    statementEnd (blanks ++ left) = blanks ++ statementEnd left := by
  induction blanks with
  | nil => rfl
  | cons c blanks ih =>
      rw [List.cons_append, statementEnd, if_pos (hblanks c List.mem_cons_self),
        ih fun d hd => hblanks d (List.mem_cons_of_mem c hd), List.cons_append]

theorem retreat_eq_of_eq_some {α : Type} {k : Spot → Option α} {spot : Spot} {result : α}
    (h : k spot = some result) (extra : Nat) : Pattern.retreat k extra spot = some result := by
  cases extra with
  | zero => exact h
  | succ extra => rw [Pattern.retreat, h]

theorem run_codeEnd {α : Type} (f : Spot → α) (text : List Char) :
    codeEnd.run (fun last => some (f last)) ⟨behind, offset, text, captured⟩ =
      some (f (Pattern.after behind offset (statementEnd text) (text.drop (statementEnd text).length)
        captured)) := by
  have hspace : lineSpace = .many 0 isLineSpace := rfl
  have hsplit := @List.takeWhile_append_dropWhile _ isLineSpace text
  have hstop := stops_dropWhile isLineSpace text
  have hblanks : ∀ c ∈ text.takeWhile isLineSpace, isLineSpace c = true :=
    fun c hc => List.mem_takeWhile_imp hc
  unfold codeEnd
  rw [Pattern.run_append, hspace, Pattern.run]
  simp only [Spot.skipWhile, Pattern.skipFrom_eq, Nat.zero_le, if_true]
  apply retreat_eq_of_eq_some
  generalize text.takeWhile isLineSpace = blanks at hsplit hblanks ⊢
  generalize text.dropWhile isLineSpace = left at hsplit hstop ⊢
  obtain rfl := hsplit
  rw [statementEnd_append_left hblanks, List.length_append, List.drop_length_add_append, ← Pattern.after_after]
  change (Pattern.optional (.text ";")).run _ ⟨blanks.reverse ++ behind, _, left, captured⟩ = _
  cases left with
  | nil => rfl
  | cons c left =>
      rw [stops_cons] at hstop
      rw [statementEnd, if_neg (by rw [hstop]; decide)]
      by_cases hc : c = ';' <;>
        simp [Pattern.optional, Pattern.text, Pattern.chars, Pattern.run, Pattern.after, Spot.next, hc]

/-! ## Statements within a larger text -/

theorem matchAt?_importStatement_frame {behind behind' text back : List Char} {offset offset' : Nat}
    (hbehind : behind.head? = behind'.head?) (hclean : ∀ c ∈ back, Scan.isTagQuote c = false) :
    (importStatement.matchAt? ⟨behind, offset, text ++ '>' :: back, []⟩).map
        (fun last => (last.captured, last.offset - offset)) =
      (importStatement.matchAt? ⟨behind', offset', text, []⟩).map
        (fun last => (last.captured, last.offset - offset')) := by
  have hline : Spot.atLineStart ⟨behind, offset, text ++ '>' :: back, []⟩ =
      Spot.atLineStart ⟨behind', offset', text, []⟩ := by
    cases behind <;> cases behind' <;> cases hbehind <;> rfl
  rw [Pattern.matchAt?, Pattern.matchAt?, ← Pattern.run_map, ← Pattern.run_map, run_importStatement,
    run_importStatement, hline]
  split
  · apply endsIn_importBody.run_frame (.inl hbehind)
    · rw [List.head?_cons]
      decide
    · intro c hc
      rcases List.mem_cons.1 hc with rfl | hc
      · decide
      · exact hclean c hc
    · intro part rest captured _
      simp only [Option.map_some, Pattern.after, run_codeEnd, statementEnd_append]
      congr 2
      omega
  · rfl

/-- A statement has a string for its path. -/
theorem exists_quote_of_fits {part : List Char} (h : importStatement.Fits behind part rest) :
    ∃ c ∈ part, Scan.isTagQuote c = true := by
  unfold importStatement at h
  obtain ⟨_, _, rfl, ⟨_, _, rfl, -, _, _, rfl, -, c, rfl, hc⟩, -⟩ := h
  exact ⟨c, by simp, hc⟩

theorem capturesFrom_eq_nil {text : List Char} (h : ∀ c ∈ text, Scan.isTagQuote c = false) :
    importStatement.capturesFrom 0 behind offset text = [] := by
  rw [List.eq_nil_iff_forall_not_mem]
  intro captured hcaptured
  obtain ⟨front, part, back, rfl, hkeeps⟩ := Pattern.exists_of_mem_capturesFrom hcaptured
  obtain ⟨c, hmem, hquote⟩ := exists_quote_of_fits hkeeps.fits
  rw [h c (by simp [hmem])] at hquote
  cases hquote

/-- No statement reaches over the opening bracket of a tag. -/
theorem capturesFrom_to_tag {front : List Char} (h : ¬"import".toList <:+: front) (behind rest : List Char)
    (offset : Nat) :
    importStatement.capturesFrom 0 behind offset (front ++ '<' :: rest) =
      importStatement.capturesFrom 0 ((front ++ ['<']).reverse ++ behind) (offset + (front ++ ['<']).length)
        rest := by
  apply Pattern.capturesFrom_append_of_stop
  intro behind part rest hfits
  obtain ⟨marks, hprefix, hmarks⟩ := exists_marks_of_fits hfits
  refine ⟨_, hprefix, ?_, fun hinside => h ((List.suffix_append marks _).isInfix.trans hinside)⟩
  intro hmem
  rcases List.mem_append.1 hmem with hmem | hmem
  · exact absurd (hmarks _ hmem) (by decide)
  · exact absurd hmem (by decide)

/-- What the preview reads as imports in the text of a tree does not depend on what is around it. -/
theorem capturesFrom_render {front : List Char} (h : ¬"import".toList <:+: front) (root : Node)
    (behind : List Char) (offset : Nat) :
    importStatement.capturesFrom 0 behind offset (front ++ (root.render ++ footerText)) =
      importStatement.captures root.render := by
  obtain ⟨text, htext⟩ : ∃ text, root.render = '<' :: (text ++ ['>']) := by
    obtain ⟨before, hbefore⟩ := root.exists_render_eq
    have hhead := root.render_head?
    rw [hbefore] at hhead ⊢
    cases before with
    | nil => cases hhead
    | cons c text =>
        obtain rfl := Option.some.inj hhead
        exact ⟨text, rfl⟩
  have hframe {behind back : List Char} {offset : Nat} (hhead : behind.head? = some '<')
      (hclean : ∀ c ∈ back, Scan.isTagQuote c = false) :
      importStatement.capturesFrom 0 behind offset (text ++ '>' :: back) =
        importStatement.capturesFrom 0 ['<'] 0 text := by
    refine @Pattern.capturesFrom_frame_of_matchAt? behind ['<'] text _ offset 0 _ (fun a b => a.head? = b.head?)
      ?_ ?_ ?_ ?_ 0 (Nat.zero_le _)
    · exact fun _ _ _ => rfl
    · exact fun hbehind => matchAt?_importStatement_frame hbehind hclean
    · intro behind offset
      apply capturesFrom_eq_nil
      intro c hc
      rcases List.mem_cons.1 hc with rfl | hc
      · decide
      · exact hclean c hc
    · exact hhead
  -- The bracket that opens the tree stops what begins before it, and behind the tree there is no quote.
  have hmodule := capturesFrom_to_tag h behind (text ++ '>' :: footerText) offset
  have hnone : ¬"import".toList <:+: [] := by decide
  have halone := capturesFrom_to_tag hnone [] (text ++ ['>']) 0
  rw [Pattern.captures_eq, htext, ← List.nil_append ('<' :: (text ++ ['>'])), halone, List.nil_append,
    List.cons_append, List.append_assoc, List.singleton_append, hmodule, hframe (by simp) (by decide),
    hframe (by simp) (by simp)]

/-! ## The statements of the header -/

/-- An import statement that the preview reads as one. -/
structure ReadImport (statement : ImportStatement) : Prop where
  plain : PlainImport statement
  clause : ∀ c ∈ statement.clause, (!Scan.isQuote c && c != ';') = true
  path : ∀ c ∈ statement.path, (!Scan.isTagQuote c && c != '\n') = true

theorem readImport_of_mem_headerImports : ∀ statement ∈ headerImports, ReadImport statement := by
  have hparts : ∀ statement ∈ headerImports, (∀ c ∈ statement.clause, (!Scan.isQuote c && c != ';') = true) ∧
      ∀ c ∈ statement.path, (!Scan.isTagQuote c && c != '\n') = true := by
    decide +kernel
  intro statement hstatement
  obtain ⟨hclause, hpath⟩ := hparts statement hstatement
  exact ⟨plainImport_of_mem_headerImports statement hstatement, hclause, hpath⟩

/-- At the beginning of a line without marks there is nothing to pass over. -/
theorem run_codeStart {k : Spot → Option Spot}
    (hline : Spot.atLineStart ⟨behind, offset, rest, captured⟩ = true) (hrest : Stops isMark rest) :
    codeStart.run k ⟨behind, offset, rest, captured⟩ = k ⟨behind, offset, rest, captured⟩ := by
  have hspace (k : Spot → Option Spot) :
      lineSpace.run k ⟨behind, offset, rest, captured⟩ = k ⟨behind, offset, rest, captured⟩ := by
    cases rest with
    | nil => rfl
    | cons c rest =>
        have hc := stops_cons.1 hrest
        simp only [isMark, Bool.or_eq_false_iff] at hc
        simp [lineSpace, Pattern.run, Spot.skipWhile, Spot.skipFrom, hc, Pattern.retreat]
  unfold codeStart
  simp only [Pattern.run_append]
  rw [Pattern.run, if_pos hline, hspace, Pattern.optional, Pattern.run]
  have hsign : (Pattern.one fun c => c == '+' || c == '-').run (fun middle => lineSpace.run k middle)
      ⟨behind, offset, rest, captured⟩ = none := by
    cases rest with
    | nil => rfl
    | cons c rest =>
        have hc := stops_cons.1 hrest
        simp only [isMark, Bool.or_eq_false_iff] at hc
        simp [Pattern.run, hc]
  rw [hsign]
  exact hspace k

theorem run_lineString {k : Spot → Option Spot} {result : Spot} {path : List Char}
    (hpath : ∀ c ∈ path, (!Scan.isTagQuote c && c != '\n') = true)
    (hk : k (Pattern.after behind offset ('\'' :: (path ++ ['\''])) rest captured) = some result) :
    lineString.run k ⟨behind, offset, '\'' :: (path ++ '\'' :: rest), captured⟩ = some result := by
  have hquote : Scan.isTagQuote '\'' = true := by decide
  have hstop : Stops (fun c => !Scan.isTagQuote c && c != '\n') ('\'' :: rest) := stops_cons.2 (by decide)
  have hopen : lineString.run k ⟨behind, offset, '\'' :: (path ++ '\'' :: rest), captured⟩ =
      (Pattern.many 0 fun c => !Scan.isTagQuote c && c != '\n').run (fun last => scriptQuote.run k last)
        ⟨'\'' :: behind, offset + 1, path ++ '\'' :: rest, captured⟩ := rfl
  rw [hopen]
  apply Pattern.run_many (Nat.zero_le _) hpath hstop
  rw [Pattern.after_cons]
  simpa [scriptQuote, Pattern.run, Pattern.after, Spot.next, hquote, Nat.add_assoc] using hk

/-- What the preview reads of a statement once its clause has ended. -/
def runSource (spot : Spot) : Option Spot :=
  Pattern.gap.run (fun word => (Pattern.text "from").run (fun blank => Pattern.gap.run
    (fun path => lineString.run (fun last => codeEnd.run some last) path) blank) word) spot

theorem runSource_eq {path : List Char} (hpath : ∀ c ∈ path, (!Scan.isTagQuote c && c != '\n') = true) :
    runSource
        ⟨behind, offset, ' ' :: ("from".toList ++ ' ' :: '\'' :: (path ++ '\'' :: ';' :: rest)), captured⟩ =
      some (Pattern.after behind offset (' ' :: ("from".toList ++ ' ' :: '\'' :: (path ++ ['\'', ';']))) rest
        captured) := by
  have hword : "from".toList = 'f' :: "rom".toList := by simp
  have hend (behind : List Char) (offset : Nat) : codeEnd.run some ⟨behind, offset, ';' :: rest, captured⟩ =
      some (Pattern.after behind offset [';'] rest captured) :=
    run_codeEnd id (';' :: rest)
  apply run_gap
  · rw [hword]
    exact stops_cons.2 (by decide)
  · rw [Pattern.text]
    refine (Pattern.run_chars "from".toList (' ' :: behind) _ captured (offset + 1)).trans ?_
    apply run_gap (stops_cons.2 (by decide))
    apply run_lineString hpath
    refine (hend _ _).trans ?_
    simp [Pattern.after, Nat.add_assoc]
    omega

theorem text_append (statement : ImportStatement) (rest : List Char) :
    statement.text ++ rest = "import".toList ++ (' ' :: (statement.clause ++
      (' ' :: ("from".toList ++ ' ' :: '\'' :: (statement.path ++ '\'' :: ';' :: rest))))) := by
  rw [text_eq_matchedImport, List.append_assoc, List.singleton_append, matchedImport_append]

theorem matchAt?_importStatement {statement : ImportStatement} (h : ReadImport statement)
    (hline : Spot.atLineStart ⟨behind, offset, statement.text ++ rest, []⟩ = true) :
    importStatement.matchAt? ⟨behind, offset, statement.text ++ rest, []⟩ =
      some (Pattern.after behind offset statement.text rest statement.clause) := by
  obtain ⟨c, more, hclause, hhead, -⟩ := h.plain.exists_clause_eq
  have hword : "import".toList = 'i' :: "mport".toList := by simp
  have hmark : Stops isMark (statement.text ++ rest) := by
    rw [text_append, hword]
    exact stops_cons.2 (by decide)
  have hrun (spot : Spot) : importStatement.matchAt? spot = codeStart.run (fun word =>
      (Pattern.text "import").run (fun blank => Pattern.gap.run (fun clause => (Pattern.capture
        (.few fun c => !Scan.isQuote c && c != ';')).run runSource clause) blank) word) spot := by
    unfold Pattern.matchAt? importStatement runSource
    simp only [Pattern.run_append]
  rw [hrun, run_codeStart hline hmark, text_append, Pattern.text]
  refine (Pattern.run_chars "import".toList behind _ [] offset).trans ?_
  apply run_gap
  · rw [hclause]
    exact stops_cons.2 hhead
  · rw [Pattern.run]
    apply Pattern.creep_append h.clause
    · intro a b hsplit hb
      apply run_from_eq_none hb
      · have hlast := h.plain.last
        rwa [hsplit, List.getLast?_append_of_ne_nil _ hb] at hlast
      · have hchain := h.plain.clause
        rw [hsplit] at hchain
        exact (List.isChain_append.1 hchain).2.1
    · have htext := text_append statement []
      refine (runSource_eq h.path).trans ?_
      rw [List.append_nil] at htext
      rw [htext]
      have hkept : offset + (7 + statement.clause.length) - (offset + 7) = statement.clause.length := by omega
      simp only [Pattern.after, Spot.textTo]
      simp [Nat.add_assoc, hkept]
      omega

/-- The preview reads an import statement a line. -/
theorem capturesFrom_importLines {statements : List ImportStatement}
    (h : ∀ statement ∈ statements, ReadImport statement) (hbehind : behind.head?.all (· == '\n') = true) :
    importStatement.capturesFrom 0 behind offset (importLines statements ++ rest) =
      statements.map ImportStatement.clause ++ importStatement.capturesFrom 0
        ((importLines statements).reverse ++ behind) (offset + (importLines statements).length) rest := by
  induction statements generalizing behind offset with
  | nil => rfl
  | cons statement statements ih =>
      have hne : statement.text ≠ [] := by
        rw [text_eq_matchedImport]
        exact List.append_ne_nil_of_right_ne_nil _ (List.cons_ne_nil _ _)
      have hline (text : List Char) : Spot.atLineStart ⟨behind, offset, text, []⟩ = true := by
        cases behind with
        | nil => rfl
        | cons c behind => exact hbehind
      have hmatch := matchAt?_importStatement (h statement List.mem_cons_self)
        (hline (statement.text ++ '\n' :: (importLines statements ++ rest)))
      have hlines : importLines (statement :: statements) ++ rest =
          statement.text ++ '\n' :: (importLines statements ++ rest) := by
        simp [importLines]
      have hbreak : importStatement.matchAt? ⟨statement.text.reverse ++ behind, offset + statement.text.length,
          '\n' :: (importLines statements ++ rest), []⟩ = none := by
        rw [Pattern.matchAt?, run_importStatement, if_neg]
        rw [text_eq_matchedImport, List.reverse_concat]
        exact (by decide : ¬(';' == '\n') = true)
      have hmore := @ih ('\n' :: (statement.text.reverse ++ behind)) (offset + statement.text.length + 1)
        (fun other hother => h other (List.mem_cons_of_mem _ hother)) rfl
      rw [hlines, Pattern.capturesFrom_of_match hne hmatch, List.map_cons, List.cons_append,
        Pattern.capturesFrom_of_none hbreak, hmore]
      have hline : importLines (statement :: statements) =
          statement.text ++ '\n' :: importLines statements := by
        simp [importLines]
      rw [hline]
      congr 3
      · simp
      · simp only [List.length_append, List.length_cons]
        omega

theorem not_infix_openingLines : ¬"import".toList <:+: openingLines ++ [' '] := by
  decide

/-- An import of a canonical module is one of the header, or in the text of the tree. -/
theorem captures_importStatement_moduleText (root : Node) :
    importStatement.captures (moduleText root defaultComponent).toList =
      headerImports.map ImportStatement.clause ++ importStatement.captures root.render := by
  have hheader := @capturesFrom_importLines [] (openingLines ++ [' '] ++ (root.render ++ footerText)) 0
    headerImports readImport_of_mem_headerImports rfl
  rw [Pattern.captures_eq, moduleText_eq_preambleText, preambleText_eq_importLines, List.append_assoc, hheader,
    capturesFrom_render not_infix_openingLines]

/-! ## The names in scope -/

/-- The bindings of the header: every component, layout primitive and icon stands for itself. -/
def headerBindings : List Binding :=
  (Vocabulary.planComponents ++ Vocabulary.icons).map fun name => ⟨name, .standIn name⟩

theorem flatMap_clauseBindings_headerImports :
    headerImports.flatMap (fun statement => clauseBindings statement.clause) = headerBindings := by
  decide +kernel

theorem collectImports_moduleText (root : Node) :
    collectImports (moduleText root defaultComponent).toList =
      headerBindings ++ collectImports root.render := by
  rw [collectImports, captures_importStatement_moduleText, List.flatMap_append, List.flatMap_map,
    flatMap_clauseBindings_headerImports]
  rfl

/-- The names that the imports of a source bring into scope, React among them. -/
def importedNames (source : List Char) : List String :=
  "React" :: (collectImports source).map Binding.name

/-- The names that the imports of a canonical module bring into scope. -/
def scopeNames (root : Node) : List String :=
  importedNames (moduleText root defaultComponent).toList

theorem mem_scopeNames_iff {root : Node} {name : String} :
    name ∈ scopeNames root ↔ (name = "React" ∨ name ∈ Vocabulary.planComponents ++ Vocabulary.icons) ∨
      name ∈ (collectImports root.render).map Binding.name := by
  have hheader : headerBindings.map Binding.name = Vocabulary.planComponents ++ Vocabulary.icons := by
    simp [headerBindings, Function.comp_def]
  rw [scopeNames, importedNames, collectImports_moduleText, List.map_append, hheader, List.mem_cons,
    List.mem_append, or_assoc]

/-- The name by which a tag is looked up: its own up to the first dot. -/
def headName (tag : String) : String :=
  String.ofList (tag.toList.takeWhile (· != '.'))

/-- The tags of the vocabulary that the header gives no name. -/
def unimportedTags : List String :=
  "Fragment" :: Vocabulary.icons.map (· ++ "Icon")

theorem mem_unimportedTags_iff {tag : String} :
    tag ∈ unimportedTags ↔ tag = "Fragment" ∨ ∃ icon ∈ Vocabulary.icons, icon ++ "Icon" = tag := by
  rw [unimportedTags, List.mem_cons, List.mem_map]

/-- A name without a dot that is no long name of an icon. -/
structure ShortName (name : String) : Prop where
  whole : '.' ∉ name.toList
  short : ¬"Icon".toList <:+ name.toList

instance : DecidablePred ShortName := fun _ =>
  decidable_of_iff (_ ∧ _) ⟨fun ⟨whole, short⟩ => ⟨whole, short⟩, fun h => ⟨h.whole, h.short⟩⟩

theorem shortName_of_mem_header : ∀ name ∈ Vocabulary.planComponents ++ Vocabulary.icons,
    ShortName name ∧ name ≠ "Fragment" := by
  decide +kernel

theorem headName_of_not_mem {tag : String} (h : '.' ∉ tag.toList) : headName tag = tag := by
  have hwhole : tag.toList.takeWhile (· != '.') = tag.toList := by
    rw [List.takeWhile_eq_self_iff]
    intro c hc
    simpa using fun heq : c = '.' => h (heq ▸ hc)
  rw [headName, hwhole, String.ofList_toList]

theorem not_shortName_append (icon : String) : ¬ShortName (icon ++ "Icon") := by
  intro h
  apply h.short
  rw [String.toList_append]
  exact List.suffix_append ..

theorem ShortName.not_mem_unimportedTags {name : String} (h : ShortName name) (hne : name ≠ "Fragment") :
    name ∉ unimportedTags := by
  rw [mem_unimportedTags_iff]
  rintro (heq | ⟨icon, -, rfl⟩)
  · exact hne heq
  · exact not_shortName_append icon h

/-- The header names every tag of the vocabulary but the fragment by itself and the long names of icons. -/
theorem headName_imported_iff {tag : String} (h : tag ∈ Vocabulary.tags) :
    (headName tag = "React" ∨ headName tag ∈ Vocabulary.planComponents ++ Vocabulary.icons) ↔
      tag ∉ unimportedTags := by
  have hreact : ShortName "React" := by decide
  simp only [Vocabulary.tags, List.mem_append, List.mem_map, List.mem_cons, List.not_mem_nil, or_false] at h
  rcases h with (hname | ⟨icon, hicon, rfl⟩) | rfl | rfl
  · have hname := List.mem_append.2 hname
    obtain ⟨hshort, hne⟩ := shortName_of_mem_header tag hname
    rw [headName_of_not_mem hshort.whole]
    exact iff_of_true (.inr hname) (hshort.not_mem_unimportedTags hne)
  · have hhead : headName (icon ++ "Icon") = icon ++ "Icon" := by
      apply headName_of_not_mem
      rw [String.toList_append, List.mem_append, not_or]
      exact ⟨(shortName_of_mem_header icon (List.mem_append_right _ hicon)).1.whole, by decide⟩
    rw [hhead]
    refine iff_of_false ?_ (not_not_intro (mem_unimportedTags_iff.2 (.inr ⟨icon, hicon, rfl⟩)))
    rintro (heq | hmem)
    · exact not_shortName_append icon (heq ▸ hreact)
    · exact not_shortName_append icon (shortName_of_mem_header _ hmem).1
  · have hshort : ¬"Icon".toList <:+ "React.Fragment".toList := by decide
    refine iff_of_true (.inl (by decide)) ?_
    rw [mem_unimportedTags_iff]
    rintro (heq | ⟨icon, -, heq⟩)
    · exact absurd heq (by decide)
    · rw [← heq, String.toList_append] at hshort
      exact hshort (List.suffix_append ..)
  · have hhead : headName "Fragment" = "Fragment" := by decide
    rw [hhead]
    refine iff_of_false ?_ (not_not_intro List.mem_cons_self)
    rintro (heq | hmem)
    · exact absurd heq (by decide)
    · exact (shortName_of_mem_header _ hmem).2 rfl

/-- A capitalised tag of a tree from the vocabulary is in scope in its canonical module exactly when the
header gives it a name, or an import in the text of the tree does. -/
theorem tag_in_scope_iff (root : Node)
    (hknown : ∀ node ∈ root.descendants, node.tag.toList.head?.any Char.isUpper = true →
      Vocabulary.tags.contains node.tag = true) :
    ∀ node ∈ root.descendants, node.tag.toList.head?.any Char.isUpper = true →
      (headName node.tag ∈ scopeNames root ↔
        node.tag ∉ unimportedTags ∨ headName node.tag ∈ (collectImports root.render).map Binding.name) := by
  intro node hnode hupper
  have htag : node.tag ∈ Vocabulary.tags := List.contains_iff_mem.1 (hknown node hnode hupper)
  rw [mem_scopeNames_iff, headName_imported_iff htag]

/-- The names of a card and of a fragment from its package are in scope. -/
theorem tag_in_scope_card :
    let root : Node := .mk "a" "Card" .empty [.element (.mk "b" "React.Fragment" .empty [.text "x"])]
    (∀ node ∈ root.descendants, Vocabulary.tags.contains node.tag = true) ∧
      ∀ node ∈ root.descendants, headName node.tag ∈ scopeNames root := by
  intro root
  have hdescendants : root.descendants = [root, .mk "b" "React.Fragment" .empty [.text "x"]] := rfl
  have hall : ∀ node ∈ root.descendants, Vocabulary.tags.contains node.tag = true ∧
      node.tag.toList.head?.any Char.isUpper = true ∧ node.tag ∉ unimportedTags := by
    rw [hdescendants]
    simp only [List.forall_mem_cons]
    decide +kernel
  refine ⟨fun node hnode => (hall node hnode).1, fun node hnode => ?_⟩
  have hscope := tag_in_scope_iff root (fun node hnode _ => (hall node hnode).1) node hnode
    (hall node hnode).2.1
  exact hscope.2 (.inl (hall node hnode).2.2)

/-- A tag of the vocabulary that is not in scope: the long name of an icon. -/
theorem tag_out_of_scope :
    let root : Node := .mk "a" "ActivityIcon" .empty []
    (∀ node ∈ root.descendants, Vocabulary.tags.contains node.tag = true) ∧
      headName root.tag = "ActivityIcon" ∧ "ActivityIcon" ∉ scopeNames root := by
  intro root
  have hnone : collectImports root.render = [] := by decide +kernel
  refine ⟨?_, by decide, ?_⟩
  · intro node hnode
    obtain rfl : node = root := List.mem_singleton.1 hnode
    decide +kernel
  · rw [mem_scopeNames_iff, hnone]
    decide +kernel

end ComponentBuilder.Preview
