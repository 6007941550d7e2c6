import ComponentBuilder.Proofs.Preview.Clauses

/-!
# The names that an import statement introduces

An import statement is taken out of the script, so each name of its clause has to be bound, or be one that is
passed to the component.  The reader cuts the clause into its parts and finds them all, save that it passes over
a hook even where the clause gives the hook another name.
-/

namespace ComponentBuilder.Preview

open Text

/-! ## Reading a member -/

section

variable {behind imported before after name rest : List Char} {offset : Nat}

theorem matchAt?_aliasWord_of_ne {c : Char} (hc : isBlank c = false) :
    aliasWord.matchAt? ⟨behind, offset, c :: rest, []⟩ = none := by
  simp [aliasWord, Pattern.matchAt?, Pattern.run_append, Pattern.gap, Pattern.run, Spot.skipWhile, Spot.skipFrom, hc]

/-- The word goes from the first blank before it to the last one after it. -/
theorem matchAt?_aliasWord (hbefore : Blanks before) (hne : before ≠ []) (hafter : Blanks after) (hne' : after ≠ [])
    (hrest : Stops isBlank rest) :
    aliasWord.matchAt? ⟨behind, offset, before ++ 'a' :: 's' :: (after ++ rest), []⟩ =
      some (Pattern.after behind offset (before ++ 'a' :: 's' :: after) rest []) := by
  have hword : Pattern.text "as" = Pattern.chars ['a', 's'] := by simp [Pattern.text]
  have hlength {blanks : List Char} (h : blanks ≠ []) : 1 ≤ blanks.length := List.length_pos_iff.2 h
  rw [aliasWord, Pattern.matchAt?, Pattern.run_append, Pattern.run_append]
  refine Pattern.run_many (hlength hne) hbefore (stops_cons.2 (by decide)) ?_
  have htext : 'a' :: 's' :: (after ++ rest) = ['a', 's'] ++ (after ++ rest) := rfl
  rw [hword, Pattern.after, htext, Pattern.run_chars]
  refine Pattern.run_many (hlength hne') hafter hrest ?_
  rw [Pattern.after_after, Pattern.after_after]
  simp

theorem cutFrom_aliasWord_of_not_blank (h : ∀ c ∈ name, isBlank c = false) (hits : List Pattern.Hit)
    (behind : List Char) (offset : Nat) :
    aliasWord.cutFrom 0 [] hits behind offset name = (hits.reverse, name) := by
  have hnone (a : List Char) (c : Char) (b : List Char) (hsplit : name = a ++ c :: b) (behind : List Char)
      (offset : Nat) : aliasWord.matchAt? ⟨behind, offset, c :: (b ++ []), []⟩ = none :=
    matchAt?_aliasWord_of_ne (h c (by simp [hsplit]))
  have hcut := @Pattern.cutFrom_append_of_none _ _ [] behind [] hits offset hnone
  rw [List.append_nil] at hcut
  rw [hcut, Pattern.cutFrom]
  simp

theorem splitBy_aliasWord_plain (h : ∀ c ∈ name, isBlank c = false) : aliasWord.splitBy name = [name] := by
  rw [Pattern.splitBy, Pattern.cut, cutFrom_aliasWord_of_not_blank h]
  rfl

theorem splitBy_aliasWord_aliased (himported : ∀ c ∈ imported, isBlank c = false)
    (hname : ∀ c ∈ name, isBlank c = false) (hbefore : Blanks before) (hne : before ≠ []) (hafter : Blanks after)
    (hne' : after ≠ []) :
    aliasWord.splitBy (imported ++ (before ++ 'a' :: 's' :: (after ++ name))) = [imported, name] := by
  have hnone (a : List Char) (c : Char) (b : List Char) (hsplit : imported = a ++ c :: b) (behind : List Char)
      (offset : Nat) :
      aliasWord.matchAt? ⟨behind, offset, c :: (b ++ (before ++ 'a' :: 's' :: (after ++ name))), []⟩ = none :=
    matchAt?_aliasWord_of_ne (himported c (by simp [hsplit]))
  have hstop : Stops isBlank name := fun c hc => hname c (List.mem_of_head? hc)
  obtain ⟨d, before, rfl⟩ := List.exists_cons_of_ne_nil hne
  have htext : d :: before ++ 'a' :: 's' :: (after ++ name) = d :: (before ++ 'a' :: 's' :: after ++ name) := by simp
  have hmatch := @matchAt?_aliasWord (imported.reverse ++ []) (d :: before) after name (0 + imported.length) hbefore
    hne hafter hne' hstop
  rw [htext] at hmatch
  rw [Pattern.splitBy, Pattern.cut, Pattern.cutFrom_append_of_none hnone, htext, Pattern.cutFrom_of_match hmatch,
    cutFrom_aliasWord_of_not_blank hname]
  simp

end

/-- What the word for types stands in front of begins with that word. -/
theorem eq_type_of_begins {name rest : List Char} (hname : isIdentifier name = true) (hrest : Stops isNameRest rest)
    (h : "type ".toList <+: name ++ rest) : name = "type".toList := by
  obtain ⟨tail, htail⟩ := h
  have hword : "type ".toList = "type".toList ++ [' '] := by decide
  rw [hword, List.append_assoc] at htail
  -- both are the longest front of characters that a name may have
  have hmark : (name ++ rest).takeWhile isNameRest = "type".toList := by
    rw [← htail]
    exact takeWhile_append_stops (by decide) (stops_cons.2 (by decide))
  rwa [takeWhile_append_stops (isNameRest_of_mem hname) hrest] at hmark

theorem Blanks.stops_append {blanks : List Char} (h : Blanks blanks) (hne : blanks ≠ []) (rest : List Char) :
    Stops isNameRest (blanks ++ rest) := by
  obtain ⟨c, blanks, rfl⟩ := List.exists_cons_of_ne_nil hne
  refine stops_cons.2 ?_
  by_contra hc
  rw [Bool.not_eq_false] at hc
  have hblank := h c List.mem_cons_self
  rw [isBlank_eq_false_of_isNameRest hc] at hblank
  cases hblank

theorem solid_identifier {text : List Char} (h : isIdentifier text = true) : Solid text := by
  obtain ⟨c, more, rfl, -⟩ := exists_cons_of_isIdentifier h
  have hblank := not_isBlank_of_mem_identifier h
  exact ⟨⟨c, rfl, hblank c List.mem_cons_self⟩,
    ⟨_, List.getLast?_eq_some_getLast (List.cons_ne_nil c more), hblank _ (List.getLast_mem _)⟩⟩

namespace Specifier

variable {specifier : Specifier} {text : List Char}

theorem Bare.identifiers {gap : List Char → Prop} (h : specifier.Bare gap text) :
    isIdentifier specifier.imported.toList = true ∧ isIdentifier specifier.name.toList = true := by
  cases h with
  | plain hname => exact ⟨hname, hname⟩
  | aliased himported hname => exact ⟨himported, hname⟩

theorem Bare.solid {gap : List Char → Prop} (h : specifier.Bare gap text) : Solid text := by
  cases h with
  | plain hname => exact solid_identifier hname
  | @aliased imported name before after himported hname =>
      have hsolid := (solid_identifier himported).enclose (before ++ 'a' :: 's' :: after) (solid_identifier hname)
      simpa using hsolid

/-- The word between the names parts them. -/
theorem Bare.names_eq (h : specifier.Bare Blanks text) :
    ((aliasWord.splitBy text).map trim).headD [] = specifier.imported.toList ∧
      ((aliasWord.splitBy text).map trim).getLastD [] = specifier.name.toList := by
  cases h with
  | plain hname =>
      have hblank := not_isBlank_of_mem_identifier hname
      rw [splitBy_aliasWord_plain hblank]
      exact ⟨trim_eq_self hblank, trim_eq_self hblank⟩
  | aliased himported hname hbefore hne hafter hne' =>
      have hblank := not_isBlank_of_mem_identifier himported
      have hblank' := not_isBlank_of_mem_identifier hname
      rw [splitBy_aliasWord_aliased hblank hblank' hbefore hne hafter hne']
      exact ⟨trim_eq_self hblank, trim_eq_self hblank'⟩

/-- The word that marks a type is not found in front of a member of another name, or of one that keeps its
name. -/
theorem Bare.not_prefix (h : specifier.Bare Blanks text)
    (htype : specifier.imported ≠ "type" ∨ text = specifier.imported.toList) : ¬"type ".toList <+: text := by
  intro hbegins
  cases h with
  | plain hname => exact not_mem_identifier hname (by decide) (hbegins.subset (show ' ' ∈ "type ".toList by decide))
  | @aliased imported name before after himported hname hbefore hne hafter hne' =>
      have hstop : Stops isNameRest (before ++ 'a' :: 's' :: (after ++ name.toList)) :=
        hbefore.stops_append hne _
      rcases htype with hother | hsame
      · exact hother (String.toList_inj.1 (eq_type_of_begins himported hstop hbegins))
      · simp at hsame

theorem Written.specifierNames_eq (h : specifier.Written Blanks text) :
    specifierNames text = (specifier.imported.toList, specifier.name.toList) := by
  have hread {front : List Char} (hfront : Blanks front) {text : List Char} (hbare : specifier.Bare Blanks text) :
      (((aliasWord.splitBy (trim (front ++ text))).map trim).headD [],
        ((aliasWord.splitBy (trim (front ++ text))).map trim).getLastD []) =
          (specifier.imported.toList, specifier.name.toList) := by
    have htrim := hbare.solid.trim_eq hfront blanks_nil
    rw [List.append_nil] at htrim
    rw [htrim, hbare.names_eq.1, hbare.names_eq.2]
  rw [specifierNames, dropFront]
  cases h with
  | value hbare htype =>
      rw [if_neg fun hbegins => hbare.not_prefix htype (List.isPrefixOf_iff_prefix.1 hbegins)]
      exact hread blanks_nil hbare
  | @marked space text hspace hbare =>
      rw [if_pos (List.isPrefixOf_iff_prefix.2 (List.prefix_append _ _)), List.drop_left]
      exact hread hspace hbare

theorem Written.bare {gap : List Char → Prop} (h : specifier.Written gap text) :
    ∃ text, specifier.Bare gap text := by
  cases h with
  | value hbare => exact ⟨_, hbare⟩
  | marked _ hbare => exact ⟨_, hbare⟩

/-- A written member is bound as what it imports. -/
theorem Written.binding_eq (h : specifier.Written Blanks text) :
    specifierBinding? text = specifier.binding? := by
  obtain ⟨bare, hbare⟩ := h.bare
  obtain ⟨himported, hname⟩ := hbare.identifiers
  rw [specifierBinding?_eq, h.specifierNames_eq, binding?]
  dsimp only
  rw [himported, hname, String.ofList_toList, String.ofList_toList, Bool.and_self, Bool.true_and]
  by_cases hhook : specifier.imported ∈ Vocabulary.hooks
  · rw [if_pos hhook, List.contains_iff_mem.2 hhook]
    rfl
  · rw [if_neg hhook, if_pos (by simpa using hhook)]

theorem Written.solid {gap : List Char → Prop} (h : specifier.Written gap text) : Solid text := by
  cases h with
  | value hbare => exact hbare.solid
  | @marked space text _ hbare =>
      have hfirst : Solid ['t'] := solid_singleton (by decide)
      have hsolid := hfirst.enclose ("ype ".toList ++ space) hbare.solid
      have hword : "type ".toList = 't' :: "ype ".toList := by decide
      rw [hword]
      simpa using hsolid

/-- A written member holds nothing but names and blanks. -/
theorem Written.chars (h : specifier.Written Blanks text) :
    ∀ c ∈ text, isNameRest c = true ∨ isBlank c = true := by
  have hbare {text : List Char} (h : specifier.Bare Blanks text) :
      ∀ c ∈ text, isNameRest c = true ∨ isBlank c = true := by
    cases h with
    | plain hname => exact fun c hc => .inl (isNameRest_of_mem hname c hc)
    | aliased himported hname hbefore _ hafter _ =>
        intro c hc
        simp only [List.mem_append, List.mem_cons] at hc
        rcases hc with hc | hc | rfl | rfl | hc | hc
        · exact .inl (isNameRest_of_mem himported c hc)
        · exact .inr (hbefore c hc)
        · exact .inl (by decide)
        · exact .inl (by decide)
        · exact .inr (hafter c hc)
        · exact .inl (isNameRest_of_mem hname c hc)
  cases h with
  | value h => exact hbare h
  | marked hspace h =>
      have hword : ∀ c ∈ "type ".toList, isNameRest c = true ∨ isBlank c = true := by decide
      exact List.forall_mem_append.2 ⟨hword, List.forall_mem_append.2 ⟨fun c hc => .inr (hspace c hc), hbare h⟩⟩

end Specifier

/-! ## Reading a list -/

theorem not_mem_of_chars {text : List Char} (h : ∀ c ∈ text, isNameRest c = true ∨ isBlank c = true) {c : Char}
    (hname : isNameRest c = false) (hblank : isBlank c = false) : c ∉ text := by
  intro hmem
  rcases h c hmem with hc | hc
  · exact ne_of_passes hc hname rfl
  · exact ne_of_passes hc hblank rfl

section

variable {specifier : Specifier} {front text back : List Char}

/-- A member with the blanks around it holds no comma. -/
theorem not_mem_part (hfront : Blanks front) (h : specifier.Written Blanks text) (hback : Blanks back) {c : Char}
    (hname : isNameRest c = false) (hblank : isBlank c = false) : c ∉ front ++ (text ++ back) := by
  have hchars := List.forall_mem_append.2 ⟨fun c hc => .inr (hfront c hc),
    List.forall_mem_append.2 ⟨h.chars, fun c hc => .inr (hback c hc)⟩⟩
  exact not_mem_of_chars hchars hname hblank

theorem filterMap_part (hfront : Blanks front) (h : specifier.Written Blanks text) (hback : Blanks back)
    (parts : List (List Char)) :
    (((front ++ (text ++ back)) :: parts).map trim |>.filter (!·.isEmpty)).filterMap specifierBinding? =
      specifier.binding?.toList ++ ((parts.map trim).filter (!·.isEmpty)).filterMap specifierBinding? := by
  have hne : (!text.isEmpty) = true := by simpa using h.solid.ne_nil
  rw [List.map_cons, h.solid.trim_eq hfront hback, List.filter_cons, if_pos hne, List.filterMap_cons, h.binding_eq]
  cases specifier.binding? <;> rfl

end

/-- The parts of a written list are bound as its members. -/
theorem ListWritten.filterMap_listParts {specifiers : List Specifier} {inside : List Char}
    (h : ListWritten Blanks specifiers inside) :
    (listParts inside).filterMap specifierBinding? = specifiers.filterMap Specifier.binding? := by
  induction h with
  | none hspace =>
      have hcomma := not_mem_of_chars (c := ',') (fun c hc => .inr (hspace c hc)) (by decide) (by decide)
      rw [listParts, split_eq_singleton hcomma, List.map_singleton, trim_eq_nil hspace]
      rfl
  | last hfront h hback =>
      rw [listParts, split_eq_singleton (not_mem_part hfront h hback (by decide) (by decide)),
        filterMap_part hfront h hback, List.filterMap_cons]
      cases Specifier.binding? _ <;> rfl
  | @more specifier specifiers front text back rest hfront h hback _ ih =>
      have htext : front ++ (text ++ (back ++ ',' :: rest)) = front ++ (text ++ back) ++ ',' :: rest := by simp
      rw [htext, listParts, split_append_cons (not_mem_part hfront h hback (by decide) (by decide)),
        filterMap_part hfront h hback, ← listParts, ih, List.filterMap_cons]
      cases specifier.binding? <;> rfl

theorem ListWritten.not_mem_brace {specifiers : List Specifier} {inside : List Char}
    (h : ListWritten Blanks specifiers inside) : '\x7d' ∉ inside := by
  induction h with
  | none hspace => exact not_mem_of_chars (fun c hc => .inr (hspace c hc)) (by decide) (by decide)
  | last hfront h hback => exact not_mem_part hfront h hback (by decide) (by decide)
  | @more specifier specifiers front text back rest hfront h hback _ ih =>
      have htext : front ++ (text ++ (back ++ ',' :: rest)) = front ++ (text ++ back) ++ ',' :: rest := by simp
      rw [htext, List.mem_append, List.mem_cons, not_or, not_or]
      exact ⟨not_mem_part hfront h hback (by decide) (by decide), by decide, ih⟩

/-! ## Reading a clause -/

section

variable {text front before after name : List Char}

theorem takeOut_namedClause_eq_none (h : '\x7b' ∉ text) : takeOut namedClause text = none := by
  cases hfound : takeOut namedClause text with
  | none => rfl
  | some found =>
      obtain ⟨front, inside, back, hbraced⟩ := exists_braced hfound
      rw [hbraced.text_eq] at h
      simp at h

theorem takeOut_wholeClause_eq_none (h : '*' ∉ text) : takeOut wholeClause text = none := by
  have hoccurs : wholeClause.occurs text = false := by
    rw [Bool.eq_false_iff]
    intro hoccurs
    obtain ⟨a, part, b, rfl, hfits⟩ := Pattern.occurs_iff.1 hoccurs
    obtain ⟨star, more, rfl, ⟨star', more', rfl, ⟨star'', more'', rfl, ⟨word, gap, rfl, hstar, -⟩, -⟩, -⟩, -⟩ := hfits
    have hword := Pattern.fits_chars hstar
    have hstar : "*".toList = ['*'] := by simp
    rw [hword, hstar] at h
    simp at h
  rw [takeOut]
  cases hsearch : wholeClause.search? text with
  | none => rfl
  | some found =>
      rw [Pattern.occurs, hsearch] at hoccurs
      cases hoccurs

/-- The name of the whole module is found behind the first star. -/
theorem takeOut_wholeClause (hfront : '*' ∉ front) (hname : isIdentifier name = true) (hbefore : Blanks before)
    (hafter : Blanks after) (hne : after ≠ []) :
    takeOut wholeClause (front ++ '*' :: (before ++ 'a' :: 's' :: (after ++ name))) = some (name, front) := by
  have hword : Pattern.text "as" = Pattern.chars ['a', 's'] := by simp [Pattern.text]
  have hstar : Pattern.text "*" = Pattern.one (· == '*') := by simp [Pattern.text, Pattern.chars]
  have hnone (a : List Char) (c : Char) (b : List Char) (hsplit : front = a ++ c :: b) (behind : List Char)
      (offset : Nat) :
      wholeClause.matchAt? ⟨behind, offset, c :: (b ++ '*' :: (before ++ 'a' :: 's' :: (after ++ name))), []⟩ =
        none := by
    have hother : (c == '*') = false := by
      rw [beq_eq_false_iff_ne]
      rintro rfl
      exact hfront (by simp [hsplit])
    simp [wholeClause, Pattern.matchAt?, Pattern.run_append, hstar, Pattern.run, hother]
  have hmatch (behind : List Char) (offset : Nat) :
      wholeClause.matchAt? ⟨behind, offset, '*' :: (before ++ 'a' :: 's' :: (after ++ name)), []⟩ =
        some (Pattern.after behind offset ('*' :: (before ++ 'a' :: 's' :: (after ++ name))) [] name) := by
    obtain ⟨c, more, rfl, hc, hmore⟩ := exists_cons_of_isIdentifier hname
    have htext : 'a' :: 's' :: (after ++ c :: more) = ['a', 's'] ++ (after ++ c :: more) := rfl
    have hstop : Stops isBlank (c :: more) :=
      stops_cons.2 (not_isBlank_of_mem_identifier hname c List.mem_cons_self)
    rw [wholeClause, Pattern.matchAt?]
    simp only [Pattern.run_append]
    rw [hstar, Pattern.run_one (by decide)]
    refine Pattern.run_many (Nat.zero_le _) hbefore (stops_cons.2 (by decide)) ?_
    rw [hword, Pattern.after, htext, Pattern.run_chars]
    refine Pattern.run_many (List.length_pos_iff.2 hne) hafter hstop ?_
    rw [Pattern.after_after, Pattern.after]
    have hcapture := @Pattern.run_capture_name
      (((['a', 's'] ++ after).reverse ++ (before.reverse ++ '*' :: behind))) []
      (offset + 1 + before.length + (['a', 's'] ++ after).length) c more [] hc hmore (stops_nil _)
    rw [List.append_nil] at hcapture
    rw [hcapture]
    simp [Pattern.after]
    omega
  rw [takeOut, Pattern.search?, Pattern.searchFrom_append_of_none hnone, Pattern.searchFrom, hmatch]
  simp [Pattern.after]

end

/-- What is read of a clause when it is no clause of types. -/
def readBindings (clause : List Char) : List Binding :=
  (namedBindings clause).1 ++ (wholeBindings (namedBindings clause).2).1 ++
    defaultBindings (wholeBindings (namedBindings clause).2).2

/-- The members are read behind the text of the default, which is left to itself. -/
theorem Members.Written.readBindings_eq {members : Members} {front text : List Char}
    (h : members.Written Blanks text) (hbrace : '\x7b' ∉ front) (hstar : '*' ∉ front) :
    readBindings (front ++ text) = (⟨none, some members⟩ : Clause).bindings ++ defaultBindings front := by
  cases h with
  | @whole name before after hname hbefore hafter hne =>
      have hnone : '\x7b' ∉ front ++ '*' :: (before ++ 'a' :: 's' :: (after ++ name.toList)) := by
        have hblank {blanks : List Char} (h : Blanks blanks) : '\x7b' ∉ blanks := fun hmem =>
          absurd (h _ hmem) (by decide)
        simp [hbrace, hblank hbefore, hblank hafter, not_mem_identifier hname (show isNameRest '\x7b' = false by decide)]
      rw [readBindings, namedBindings, takeOut_namedClause_eq_none hnone]
      dsimp only
      rw [wholeBindings, takeOut_wholeClause hstar hname hbefore hafter hne]
      simp [Clause.bindings, Clause.specifiers, Clause.whole?]
  | @listed specifiers inside hlist =>
      have hbraced : Braced (front ++ '\x7b' :: (inside ++ ['\x7d'])) front inside [] :=
        ⟨rfl, hbrace, hlist.not_mem_brace⟩
      rw [readBindings, namedBindings, takeOut_namedClause hbraced]
      dsimp only
      rw [List.append_nil, wholeBindings, takeOut_wholeClause_eq_none hstar, hlist.filterMap_listParts]
      simp [Clause.bindings, Clause.specifiers, Clause.whole?]

/-- The binding of a default that is not React. -/
theorem defaultBindings_eq {text : List Char} {name : String} (hname : isIdentifier name.toList = true)
    (htext : trim (trimCommas (trim text)) = name.toList) :
    defaultBindings text = (⟨some name, none⟩ : Clause).bindings := by
  have hreact : (name.toList != "React".toList) = (name != "React") := by
    rw [Bool.eq_iff_iff, bne_iff_ne, bne_iff_ne, ne_eq, ne_eq, String.toList_inj]
  rw [defaultBindings, htext, hname, String.ofList_toList, Bool.true_and, hreact]
  by_cases h : name = "React"
  · simp [Clause.bindings, Clause.specifiers, Clause.whole?, h]
  · simp [Clause.bindings, Clause.specifiers, Clause.whole?, h]

theorem trimCommas_append {text commas : List Char} (h : ',' ∉ text) (hne : text ≠ [])
    (hcommas : ∀ c ∈ commas, (c == ',') = true) : trimCommas (text ++ commas) = text := by
  have hstop {part : List Char} (hpart : ∀ c ∈ part, c ∈ text) (rest : List Char) (hpart' : part ≠ []) :
      Stops (· == ',') (part ++ rest) := by
    intro c hc
    rw [List.head?_append_of_ne_nil _ hpart'] at hc
    rw [beq_eq_false_iff_ne]
    rintro rfl
    exact h (hpart _ (List.mem_of_head? hc))
  have hstart : (text ++ commas).dropWhile (· == ',') = text ++ commas :=
    @dropWhile_append_stops (· == ',') [] (text ++ commas) (by simp) (hstop (fun _ hc => hc) commas hne)
  have hend : Stops (· == ',') (text.reverse ++ []) :=
    hstop (fun _ hc => List.mem_reverse.1 hc) [] (by simpa using hne)
  rw [List.append_nil] at hend
  rw [trimCommas, hstart, List.reverse_append, dropWhile_append_stops
    (fun c hc => hcommas c (List.mem_reverse.1 hc)) hend, List.reverse_reverse]

/-- What is left of a default and the comma behind it is its name. -/
theorem trim_defaultText {name front back : List Char} (hname : isIdentifier name = true) (hfront : Blanks front)
    (hback : Blanks back) : trim (trimCommas (trim (name ++ (front ++ ',' :: back)))) = name := by
  have hsolid := (solid_identifier hname).enclose front (@solid_singleton ',' (by decide))
  have houter : trim (name ++ (front ++ ',' :: back)) = name ++ front ++ [','] := by
    have htrim := hsolid.trim_eq blanks_nil hback
    simpa using htrim
  have hcomma : ',' ∉ name ++ front := by
    rw [List.mem_append, not_or]
    exact ⟨not_mem_identifier hname (by decide), fun hmem => absurd (hfront _ hmem) (by decide)⟩
  have hne : name ++ front ≠ [] := by simp [identifier_ne_nil hname]
  rw [houter, trimCommas_append hcomma hne (by simp)]
  exact (solid_identifier hname).trim_eq blanks_nil hfront

theorem Clause.Written.readBindings_eq {clause : Clause} {text : List Char} (h : clause.Written Blanks text) :
    readBindings text = clause.bindings := by
  cases h with
  | @default name hname =>
      have hcommas := @trimCommas_append name.toList [] (not_mem_identifier hname (by decide))
        (identifier_ne_nil hname) (by simp)
      rw [List.append_nil] at hcommas
      have htrim := trim_eq_self (not_isBlank_of_mem_identifier hname)
      have hdefault := defaultBindings_eq hname (by rw [htrim, hcommas, htrim])
      rw [readBindings, namedBindings, takeOut_namedClause_eq_none (not_mem_identifier hname (by decide))]
      dsimp only
      rw [wholeBindings, takeOut_wholeClause_eq_none (not_mem_identifier hname (by decide))]
      simpa using hdefault
  | members h =>
      have hread := @Members.Written.readBindings_eq _ [] _ h (by simp) (by simp)
      have hnone : defaultBindings [] = [] := by decide
      rwa [hnone, List.append_nil] at hread
  | @both name members front back text hname hfront hback h =>
      have hsign {c : Char} (hc : isNameRest c = false) (hblank : isBlank c = false) (hcomma : c ≠ ',') :
          c ∉ name.toList ++ (front ++ ',' :: back) := by
        have hspace {blanks : List Char} (h : Blanks blanks) : c ∉ blanks := fun hmem =>
          ne_of_passes (h c hmem) hblank rfl
        simp [not_mem_identifier hname hc, hspace hfront, hspace hback, hcomma]
      have hdefault := defaultBindings_eq hname (trim_defaultText hname hfront hback)
      have htext : name.toList ++ (front ++ ',' :: (back ++ text)) = name.toList ++ (front ++ ',' :: back) ++ text := by
        simp
      rw [htext, h.readBindings_eq (hsign (by decide) (by decide) (by decide))
        (hsign (by decide) (by decide) (by decide)), hdefault]
      simp [Clause.bindings, Clause.specifiers, Clause.whole?]

/-! ## The names of a clause -/

theorem Members.Written.solid {gap : List Char → Prop} {members : Members} {text : List Char}
    (h : members.Written gap text) : Solid text := by
  cases h with
  | @whole name before after hname =>
      have hstar : Solid ['*'] := solid_singleton (by decide)
      have hsolid := hstar.enclose (before ++ 'a' :: 's' :: after) (solid_identifier hname)
      simpa using hsolid
  | listed =>
      have hopen : Solid ['\x7b'] := solid_singleton (by decide)
      have hclose : Solid ['\x7d'] := solid_singleton (by decide)
      exact hopen.enclose _ hclose

theorem Clause.Written.solid {gap : List Char → Prop} {clause : Clause} {text : List Char}
    (h : clause.Written gap text) : Solid text := by
  cases h with
  | default hname => exact solid_identifier hname
  | members h => exact h.solid
  | @both name members front back text hname _ _ h =>
      have hsolid := (solid_identifier hname).enclose (front ++ ',' :: back) h.solid
      simpa using hsolid

/-- A clause is taken for one of types only when its default has that name. -/
theorem Clause.Written.not_prefix {clause : Clause} {text : List Char} (h : clause.Written Blanks text)
    (hdefault : clause.default? ≠ some "type") : ¬"type ".toList <+: text := by
  intro hbegins
  cases h with
  | default hname => exact not_mem_identifier hname (by decide) (hbegins.subset (show ' ' ∈ "type ".toList by decide))
  | members h =>
      have hword : "type ".toList = 't' :: "ype ".toList := by decide
      obtain ⟨tail, htail⟩ := hbegins
      rw [hword] at htail
      cases h with
      | whole => exact absurd (List.cons.inj htail).1 (by decide)
      | listed => exact absurd (List.cons.inj htail).1 (by decide)
  | @both name members front back text hname hfront _ _ =>
      have hstop : Stops isNameRest (front ++ ',' :: (back ++ text)) := by
        rcases eq_or_ne front [] with rfl | hne
        · exact stops_cons.2 (by decide)
        · exact hfront.stops_append hne _
      exact hdefault (congrArg some (String.toList_inj.1 (eq_type_of_begins hname hstop hbegins)))

/-- Comments and the blanks around a clause are no part of it. -/
theorem Clause.WrittenIn.written_clauseText {clause : Clause} {text : List Char} (h : clause.WrittenIn text) :
    clause.Written Blanks (clauseText text) := by
  obtain ⟨front, core, back, rfl, hfront, hcore, hback⟩ := h
  obtain ⟨blanks, hblanks, -, hfront'⟩ := hfront.exists_uncomments
  obtain ⟨out, hwritten, hout⟩ := hcore.exists_uncomments
  obtain ⟨blanks', hblanks', hback'⟩ := hback.exists_uncommented
  have htext := (hfront' _ _ (hout _ _ hback')).replace_eq
  rwa [clauseText, htext, hwritten.solid.trim_eq hblanks hblanks']

/-- A statement binds what its clause imports, unless a default of that name is taken for the word for types. -/
theorem Clause.WrittenIn.clauseBindings_eq {clause : Clause} {text : List Char} (h : clause.WrittenIn text)
    (htype : clause.default? = some "type" → ¬"type ".toList <+: clauseText text) :
    clauseBindings text = clause.bindings := by
  have hnone : ¬"type ".toList <+: clauseText text := by
    by_cases hdefault : clause.default? = some "type"
    · exact htype hdefault
    · exact h.written_clauseText.not_prefix hdefault
  rw [Preview.clauseBindings_eq, if_neg fun hbegins => hnone (List.isPrefixOf_iff_prefix.1 hbegins)]
  exact h.written_clauseText.readBindings_eq

/-- A name that something stands for when the script runs: it is bound, or passed to the component. -/
def Resolved (source name : String) : Prop :=
  name ∈ (prepare source).bindings.map Binding.name ∨ name = "React" ∨ name ∈ Vocabulary.hooks

instance (source name : String) : Decidable (Resolved source name) :=
  inferInstanceAs (Decidable (_ ∨ _ ∨ _))

theorem resolved_of_mem_clauseBindings {source : String} {text : List Char} {binding : Binding}
    (hmem : text ∈ importStatement.captures source.toList) (h : binding ∈ clauseBindings text) :
    Resolved source binding.name := by
  refine .inl (mem_names_resolveBindings.2 (.inl (List.mem_map_of_mem ?_)))
  exact List.mem_flatMap.2 ⟨text, hmem, h⟩

/-- A name of a clause has a binding, is React, or is given to a hook. -/
theorem Clause.exists_binding_of_mem_names {clause : Clause} {name : String} (h : name ∈ clause.names) :
    (∃ binding ∈ clause.bindings, binding.name = name) ∨ name = "React" ∨
      ∃ specifier ∈ clause.specifiers, specifier.imported ∈ Vocabulary.hooks ∧ specifier.name = name := by
  simp only [names, List.mem_append, Option.mem_toList, List.mem_map] at h
  rcases h with (hdefault | hwhole) | ⟨specifier, hspecifier, rfl⟩
  · by_cases hreact : name = "React"
    · exact .inr (.inl hreact)
    · refine .inl ⟨⟨name, .standIn name⟩, ?_, rfl⟩
      simp [bindings, hdefault, hreact]
  · refine .inl ⟨⟨name, .wholeModule⟩, ?_, rfl⟩
    simp [bindings, hwhole]
  · by_cases hhook : specifier.imported ∈ Vocabulary.hooks
    · exact .inr (.inr ⟨specifier, hspecifier, hhook, rfl⟩)
    · refine .inl ⟨⟨specifier.name, .standIn specifier.imported⟩, ?_, rfl⟩
      have hbinding : specifier.binding? = some ⟨specifier.name, .standIn specifier.imported⟩ := if_neg hhook
      simp only [bindings, List.mem_append, List.mem_filterMap]
      exact .inl (.inl ⟨specifier, hspecifier, hbinding⟩)

/--
An import statement binds every name that its clause introduces, save React and the names it gives to hooks.  So
after the statement is taken out of the script, all its names still stand for something exactly when the names
that it gives to hooks do.
-/
theorem imported_names_resolved_iff {source : String} {text : List Char} {clause : Clause}
    (hmem : text ∈ importStatement.captures source.toList) (hwritten : clause.WrittenIn text)
    (htype : clause.default? = some "type" → ¬"type ".toList <+: clauseText text) :
    clauseBindings text = clause.bindings ∧
      ((∀ name ∈ clause.names, Resolved source name) ↔
        ∀ specifier ∈ clause.specifiers, specifier.imported ∈ Vocabulary.hooks →
          Resolved source specifier.name) := by
  have hbindings := hwritten.clauseBindings_eq htype
  refine ⟨hbindings, fun h specifier hspecifier _ => ?_, fun h name hname => ?_⟩
  · refine h specifier.name ?_
    exact List.mem_append_right _ (List.mem_map_of_mem hspecifier)
  · rcases Clause.exists_binding_of_mem_names hname with ⟨binding, hbinding, rfl⟩ | hreact |
      ⟨specifier, hspecifier, hhook, rfl⟩
    · exact resolved_of_mem_clauseBindings hmem (hbindings ▸ hbinding)
    · exact .inr (.inl hreact)
    · exact h specifier hspecifier hhook

/-- A default, an alias, a comment, and a hook whose other name the next statement imports. -/
theorem imported_names_resolved_mixed :
    ["App", "C", "useS"].Forall (Resolved
      "import App, \x7b Card as C, // cards\n  useState as useS, \x7d from './app';\nimport useS from './s';\n") := by
  have hspace : Layout [' '] := .blank (by decide) .nil
  have hcard : Specifier.Written Layout ⟨"Card", "C"⟩ _ :=
    .value (.aliased (by decide) (by decide) hspace (by simp) hspace (by simp)) (.inl (by decide))
  have hstate : Specifier.Written Layout ⟨"useState", "useS"⟩ _ :=
    .value (.aliased (by decide) (by decide) hspace (by simp) hspace (by simp)) (.inl (by decide))
  have hline : Layout (' ' :: '/' :: '/' :: (" cards".toList ++ (['\n'] ++ [' ', ' ']))) :=
    .blank (by decide) (.line (by decide) (.inl rfl) (.blank (by decide) hspace))
  have hlist := ListWritten.more hspace hcard .nil (.more hline hstate .nil (.none hspace))
  have hwritten : Clause.WrittenIn ⟨some "App", some (.listed [⟨"Card", "C"⟩, ⟨"useState", "useS"⟩])⟩ _ :=
    ⟨[], _, [], rfl, .nil, .both (by decide) .nil hspace (.listed hlist), .closed .nil⟩
  refine List.forall_iff_forall_mem.2 ?_
  exact (imported_names_resolved_iff (by decide +kernel) hwritten (by decide)).2.2 (by decide +kernel)

/-- A hook under another name loses both: the statement is taken out, and nothing is bound. -/
theorem hook_alias_unresolved :
    importStatement.captures "import \x7b useState as useS \x7d from 'react';\n".toList =
        ["\x7b useState as useS \x7d".toList] ∧
      (prepare "import \x7b useState as useS \x7d from 'react';\n").script = "\n" ∧
      ¬Resolved "import \x7b useState as useS \x7d from 'react';\n" "useS" := by
  decide +kernel

end ComponentBuilder.Preview
