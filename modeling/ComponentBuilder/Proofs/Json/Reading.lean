import ComponentBuilder.Proofs.Json.Literal
import Mathlib.Data.List.DropRight

/-!
# Reading back values

The reader takes back every value that the printer wrote, in either layout: what a value holds, the order of
fields included, is in its text.  Values with doubles are left aside.
-/

namespace ComponentBuilder.Json

open Reader

mutual

/-- A value without doubles and without repeated names. -/
def Legible : Json → Prop
  | .double _ => False
  | .arr items => LegibleItems items
  | .obj fields => (fields.map Prod.fst).Nodup ∧ LegibleFields fields
  | _ => True
termination_by structural value => value

/-- All items of an array are legible. -/
def LegibleItems : List Json → Prop
  | [] => True
  | item :: items => Legible item ∧ LegibleItems items
termination_by structural items => items

/-- All fields of an object are legible. -/
def LegibleFields : List (String × Json) → Prop
  | [] => True
  | (_, value) :: fields => Legible value ∧ LegibleFields fields
termination_by structural fields => fields

end

theorem legibleFields_of_forall {fields : List (String × Json)} (h : ∀ field ∈ fields, field.2.Legible) :
    LegibleFields fields := by
  induction fields with
  | nil => trivial
  | cons field rest ih =>
      exact ⟨h field List.mem_cons_self, ih fun other hother => h other (List.mem_cons_of_mem field hother)⟩

theorem legibleItems_of_forall {items : List Json} (h : ∀ item ∈ items, item.Legible) : LegibleItems items := by
  induction items with
  | nil => trivial
  | cons item rest ih =>
      exact ⟨h item List.mem_cons_self, ih fun other hother => h other (List.mem_cons_of_mem item hother)⟩

/-! ## White space -/

theorem skipSpace_cons {c : Char} (h : isSpace c = false) (rest : List Char) :
    skipSpace (c :: rest) = c :: rest :=
  List.dropWhile_cons_of_neg (by simp [h])

theorem skipSpace_append {space : List Char} (h : ∀ c ∈ space, isSpace c = true) (text : List Char) :
    skipSpace (space ++ text) = skipSpace text :=
  List.dropWhile_append_of_pos h

theorem skipSpace_skipSpace (text : List Char) : skipSpace (skipSpace text) = skipSpace text :=
  List.dropWhile_idempotent isSpace text

theorem valueFuel_skipSpace (limits : ReadLimits) (fuel depth : Nat) (text : List Char) :
    valueFuel limits fuel depth (skipSpace text) = valueFuel limits fuel depth text := by
  cases fuel with
  | zero => rfl
  | succ fuel => rw [valueFuel, valueFuel, skipSpace_skipSpace]

theorem fieldName?_skipSpace (limits : ReadLimits) (text : List Char) :
    fieldName? limits (skipSpace text) = fieldName? limits text := by
  rw [fieldName?, fieldName?, skipSpace_skipSpace]

namespace Layout

variable (layout : Layout) (level : Nat)

theorem isSpace_of_mem_lineBreak : ∀ c ∈ layout.lineBreak level, isSpace c = true := by
  intro c hc
  cases layout with
  | compact => cases hc
  | indented =>
      rcases List.mem_cons.1 hc with rfl | hblank
      · rfl
      · rw [List.eq_of_mem_replicate hblank]
        rfl

theorem ends_lineBreak {rest : List Char} (h : Ends rest) : Ends (layout.lineBreak level ++ rest) := by
  cases layout with
  | compact => exact h
  | indented =>
      intro c hc
      simp only [lineBreak, List.cons_append, List.head?_cons, Option.mem_def, Option.some.injEq] at hc
      exact .inr (.inr (.inr hc.symm))

theorem flatMap_lineBreak {spell : Char → List Char} (h : Respelling spell) :
    (layout.lineBreak level).flatMap spell = layout.lineBreak level := by
  apply h.flatMap_ascii
  intro c hc
  cases layout with
  | compact => cases hc
  | indented =>
      rcases List.mem_cons.1 hc with rfl | hblank
      · decide
      · rw [List.eq_of_mem_replicate hblank]
        decide

theorem flatMap_colon {spell : Char → List Char} (h : Respelling spell) :
    layout.colon.flatMap spell = layout.colon := by
  apply h.flatMap_ascii
  cases layout <;> decide

end Layout

/-! ## Items and fields together with the first -/

/-- The text of the items of an array. -/
def renderedItems (layout : Layout) (level : Nat) : List Json → List Char
  | [] => []
  | item :: items =>
      layout.lineBreak level ++ (render layout level item ++ renderItems layout level items)

/-- The text of the fields of an object. -/
def renderedFields (layout : Layout) (level : Nat) : List (String × Json) → List Char
  | [] => []
  | (name, value) :: fields =>
      layout.lineBreak level ++ (quote name.toList ++ (layout.colon ++
        (render layout level value ++ renderFields layout level fields)))

theorem renderItems_cons (layout : Layout) (level : Nat) (item : Json) (items : List Json) :
    renderItems layout level (item :: items) = ',' :: renderedItems layout level (item :: items) := by
  simp [renderItems, renderedItems]

theorem renderFields_cons (layout : Layout) (level : Nat) (field : String × Json)
    (fields : List (String × Json)) :
    renderFields layout level (field :: fields) = ',' :: renderedFields layout level (field :: fields) := by
  obtain ⟨name, value⟩ := field
  simp [renderFields, renderedFields]

theorem render_arr_cons (layout : Layout) (level : Nat) (item : Json) (items : List Json) :
    render layout level (.arr (item :: items)) =
      '[' :: (renderedItems layout (level + 1) (item :: items) ++ (layout.lineBreak level ++ [']'])) := by
  simp [render, renderedItems]

theorem render_obj_cons (layout : Layout) (level : Nat) (field : String × Json)
    (fields : List (String × Json)) :
    render layout level (.obj (field :: fields)) =
      '{' :: (renderedFields layout (level + 1) (field :: fields) ++ (layout.lineBreak level ++ ['}'])) := by
  obtain ⟨name, value⟩ := field
  simp [render, renderedFields]

theorem ends_renderItems {layout : Layout} {level : Nat} {rest : List Char} (h : Ends rest)
    {spell : Char → List Char} (hspell : Respelling spell) :
    ∀ items, Ends ((renderItems layout level items).flatMap spell ++ rest)
  | [] => h
  | item :: items => by
      intro c hc
      have hcomma : spell ',' = [','] := hspell.ascii _ (by decide) (by decide)
      simp only [renderItems_cons, List.flatMap_cons, hcomma, List.cons_append, List.head?_cons,
        Option.mem_def, Option.some.injEq] at hc
      exact .inl hc.symm

theorem ends_renderFields {layout : Layout} {level : Nat} {rest : List Char} (h : Ends rest)
    {spell : Char → List Char} (hspell : Respelling spell) :
    ∀ fields, Ends ((renderFields layout level fields).flatMap spell ++ rest)
  | [] => h
  | field :: fields => by
      intro c hc
      have hcomma : spell ',' = [','] := hspell.ascii _ (by decide) (by decide)
      simp only [renderFields_cons, List.flatMap_cons, hcomma, List.cons_append, List.head?_cons,
        Option.mem_def, Option.some.injEq] at hc
      exact .inl hc.symm

/-! ## Words, strings and integers -/

section Atoms

variable {spell : Char → List Char} {limits : ReadLimits} {fuel depth : Nat} {rest : List Char}

theorem valueFuel_word {word : List Char} {value : Json} {c : Char} {chars : List Char}
    (hword : word = c :: chars) (hfuel : 0 < fuel)
    (h : (c = 't' ∧ word = "true".toList ∧ value = .bool true) ∨
      (c = 'f' ∧ word = "false".toList ∧ value = .bool false) ∨
      (c = 'n' ∧ word = "null".toList ∧ value = .null)) :
    valueFuel limits fuel depth (word ++ rest) = some (value, rest) := by
  obtain ⟨fuel, rfl⟩ := Nat.exists_eq_succ_of_ne_zero (Nat.ne_of_gt hfuel)
  rcases h with ⟨rfl, rfl, rfl⟩ | ⟨rfl, rfl, rfl⟩ | ⟨rfl, rfl, rfl⟩ <;> rfl

theorem valueFuel_quote (h : Respelling spell) (hfuel : 0 < fuel) (s : String) :
    valueFuel limits fuel depth ((quote s.toList).flatMap spell ++ rest) = some (.str s, rest) := by
  obtain ⟨fuel, rfl⟩ := Nat.exists_eq_succ_of_ne_zero (Nat.ne_of_gt hfuel)
  rw [quote_flatMap h, List.cons_append, valueFuel, skipSpace_cons (by decide)]
  simp only [BEq.rfl, if_true, List.append_assoc, List.singleton_append, string?_inside h, Option.map_some,
    Read.value, Bool.false_eq_true, if_false, String.ofList_toList]

theorem valueFuel_int (hlimits : limits.KeepsWords) (hfuel : 0 < fuel) (hrest : Ends rest) {n : Int}
    (hword : fitsWord n = true) :
    valueFuel limits fuel depth ((toString n).toList ++ rest) = some (.int n, rest) := by
  obtain ⟨fuel, rfl⟩ := Nat.exists_eq_succ_of_ne_zero (Nat.ne_of_gt hfuel)
  have hnumber := number?_toString hlimits hrest hword
  obtain ⟨c, chars, htext, hc⟩ := head_toString n
  have hne (other : Char) (hother : other.isDigit = false) (hminus : '-' ≠ other) : (c == other) = false := by
    rcases hc with rfl | hdigit
    · simpa using hminus
    · simpa using ne_of_isDigit hdigit hother
  have hspace : isSpace c = false := by
    simp [isSpace, hne ' ' rfl, hne '\n' rfl, hne '\r' rfl, hne '\t' rfl]
  rw [htext, List.cons_append] at hnumber ⊢
  rw [valueFuel, skipSpace_cons hspace]
  simp only [hne '"' rfl (by decide), hne '\x7b' rfl (by decide), hne '[' rfl (by decide), hne 't' rfl (by decide),
    hne 'f' rfl (by decide), hne 'n' rfl (by decide), Bool.false_eq_true, if_false, hnumber, Option.some_or, ite_self]

theorem valueFuel_emptyArray (hfuel : 0 < fuel) (hdepth : 0 < depth) :
    valueFuel limits fuel depth ('[' :: ']' :: rest) = some (.arr [], rest) := by
  obtain ⟨fuel, rfl⟩ := Nat.exists_eq_succ_of_ne_zero (Nat.ne_of_gt hfuel)
  obtain ⟨depth, rfl⟩ := Nat.exists_eq_succ_of_ne_zero (Nat.ne_of_gt hdepth)
  rfl

theorem valueFuel_emptyObject (hfuel : 0 < fuel) (hdepth : 0 < depth) :
    valueFuel limits fuel depth ('\x7b' :: '\x7d' :: rest) = some (.obj [], rest) := by
  obtain ⟨fuel, rfl⟩ := Nat.exists_eq_succ_of_ne_zero (Nat.ne_of_gt hfuel)
  obtain ⟨depth, rfl⟩ := Nat.exists_eq_succ_of_ne_zero (Nat.ne_of_gt hdepth)
  rfl

end Atoms

/-! ## Entering a container -/

section Containers

variable {limits : ReadLimits} {fuel depth : Nat} {text : List Char} {found : Json × List Char}

theorem itemsFuel_skipSpace (limits : ReadLimits) (seen : List Json) (text : List Char) :
    itemsFuel limits fuel depth seen (skipSpace text) = itemsFuel limits fuel depth seen text := by
  cases fuel with
  | zero => rfl
  | succ fuel => rw [itemsFuel, itemsFuel, valueFuel_skipSpace]

theorem fieldsFuel_skipSpace (limits : ReadLimits) (seen : Keyed Json) (text : List Char) :
    fieldsFuel limits fuel depth seen (skipSpace text) = fieldsFuel limits fuel depth seen text := by
  cases fuel with
  | zero => rfl
  | succ fuel => rw [fieldsFuel, fieldsFuel, fieldName?_skipSpace]

/-- Items do not begin with the end of their array. -/
theorem head?_ne_of_itemsFuel {seen : List Json}
    (h : itemsFuel limits fuel depth seen text = some found) : (skipSpace text).head? ≠ some ']' := by
  intro hhead
  obtain ⟨rest, hrest⟩ := List.head?_eq_some_iff.1 hhead
  rw [← itemsFuel_skipSpace, hrest] at h
  cases fuel with
  | zero => cases h
  | succ fuel =>
      cases fuel with
      | zero => cases h
      | succ fuel =>
          have hnumber : number? limits (']' :: rest) = none := rfl
          have hword : nonFinite? (']' :: rest) = none := rfl
          have hvalue : valueFuel limits (fuel + 1) depth (']' :: rest) = none := by
            rw [valueFuel, skipSpace_cons (by decide)]
            simp only [Char.reduceBEq, Bool.false_eq_true, if_false, hnumber, hword, Option.none_or, ite_self]
          rw [itemsFuel, hvalue] at h
          cases h

theorem head?_ne_of_fieldsFuel {seen : Keyed Json}
    (h : fieldsFuel limits fuel depth seen text = some found) : (skipSpace text).head? ≠ some '\x7d' := by
  intro hhead
  obtain ⟨rest, hrest⟩ := List.head?_eq_some_iff.1 hhead
  cases fuel with
  | zero => cases h
  | succ fuel =>
      have hname : fieldName? limits text = none := by
        rw [fieldName?, hrest]
        rfl
      rw [fieldsFuel, hname] at h
      cases h

/-- What reads as items reads as an array in brackets. -/
theorem valueFuel_array (h : itemsFuel limits fuel depth [] text = some found) :
    valueFuel limits (fuel + 1) (depth + 1) ('[' :: text) = some found := by
  have hhead := head?_ne_of_itemsFuel h
  rw [← itemsFuel_skipSpace] at h
  rw [valueFuel, skipSpace_cons (by decide)]
  simp only [Char.reduceBEq, Bool.false_eq_true, if_false, if_true]
  split
  · next rest hbracket => simp [hbracket] at hhead
  · exact h

theorem valueFuel_object (h : fieldsFuel limits fuel depth .empty text = some found) :
    valueFuel limits (fuel + 1) (depth + 1) ('\x7b' :: text) = some found := by
  have hhead := head?_ne_of_fieldsFuel h
  rw [← fieldsFuel_skipSpace] at h
  rw [valueFuel, skipSpace_cons (by decide)]
  simp only [Char.reduceBEq, Bool.false_eq_true, if_false, if_true]
  split
  · next rest hbrace => simp [hbrace] at hhead
  · exact h

end Containers

theorem render_ascii {spell : Char → List Char} (h : Respelling spell) {text : List Char}
    (htext : (text.all fun c => c != '<' && c.toNat < 128) = true) : text.flatMap spell = text := by
  apply h.flatMap_ascii
  intro c hc
  have hchar := List.all_eq_true.1 htext c hc
  simpa using hchar

theorem deep_pos_of_arr {deep : Nat} {items : List Json} (h : refusal? deep (.arr items) = none) : 0 < deep := by
  cases deep with
  | zero => cases h
  | succ deep => exact Nat.succ_pos deep

theorem deep_pos_of_obj {deep : Nat} {fields : List (String × Json)}
    (h : refusal? deep (.obj fields) = none) : 0 < deep := by
  cases deep with
  | zero => cases h
  | succ deep => exact Nat.succ_pos deep

theorem flatMap_render_arr {spell : Char → List Char} (h : Respelling spell) (layout : Layout) (level : Nat)
    (item : Json) (items : List Json) :
    (render layout level (.arr (item :: items))).flatMap spell =
      '[' :: ((renderedItems layout (level + 1) (item :: items)).flatMap spell ++
        (layout.lineBreak level ++ [']'])) := by
  have hopen : spell '[' = ['['] := h.ascii _ (by decide) (by decide)
  have hclose : spell ']' = [']'] := h.ascii _ (by decide) (by decide)
  rw [render_arr_cons]
  simp only [List.flatMap_cons, List.flatMap_append, List.flatMap_nil, layout.flatMap_lineBreak level h, hopen,
    hclose, List.cons_append, List.nil_append]

theorem flatMap_render_obj {spell : Char → List Char} (h : Respelling spell) (layout : Layout) (level : Nat)
    (field : String × Json) (fields : List (String × Json)) :
    (render layout level (.obj (field :: fields))).flatMap spell =
      '\x7b' :: ((renderedFields layout (level + 1) (field :: fields)).flatMap spell ++
        (layout.lineBreak level ++ ['\x7d'])) := by
  have hopen : spell '\x7b' = ['\x7b'] := h.ascii _ (by decide) (by decide)
  have hclose : spell '\x7d' = ['\x7d'] := h.ascii _ (by decide) (by decide)
  rw [render_obj_cons]
  simp only [List.flatMap_cons, List.flatMap_append, List.flatMap_nil, layout.flatMap_lineBreak level h, hopen,
    hclose, List.cons_append, List.nil_append]

/-- The name of a field reads as the name, and leaves the value. -/
theorem fieldName?_quote {spell : Char → List Char} (h : Respelling spell) (limits : ReadLimits) (layout : Layout)
    (level : Nat) (name : String) (rest : List Char) :
    ∃ blanks : List Char, (∀ c ∈ blanks, isSpace c = true) ∧
      fieldName? limits (layout.lineBreak level ++ ((quote name.toList).flatMap spell ++
        (layout.colon ++ rest))) = some (⟨name, false⟩, blanks ++ rest) := by
  refine ⟨layout.colon.tail, ?_, ?_⟩
  · cases layout <;> decide
  · rw [← fieldName?_skipSpace, skipSpace_append (layout.isSpace_of_mem_lineBreak level), fieldName?_skipSpace,
      quote_flatMap h, List.cons_append, fieldName?, skipSpace_cons (by decide)]
    simp only [List.append_assoc, List.singleton_append, string?_inside h, String.ofList_toList]
    cases layout <;> rfl

/-! ## Containers -/

mutual

/-- A printed value reads as the value. -/
theorem valueFuel_render {spell : Char → List Char} (h : Respelling spell) {limits : ReadLimits}
    (hlimits : limits.KeepsWords) (layout : Layout) :
    ∀ (value : Json) (level deep depth fuel : Nat) (rest : List Char), value.Legible →
      refusal? deep value = none → deep ≤ depth →
      2 * ((render layout level value).flatMap spell).length ≤ fuel → Ends rest →
      valueFuel limits fuel depth ((render layout level value).flatMap spell ++ rest) =
        some (value, rest)
  | .null, level, deep, depth, fuel, rest, _, _, _, hfuel, _ => by
      have htext : (render layout level .null).flatMap spell = "null".toList := render_ascii h rfl
      rw [htext] at hfuel ⊢
      exact valueFuel_word rfl (by simp at hfuel; omega) (.inr (.inr ⟨rfl, rfl, rfl⟩))
  | .bool true, level, deep, depth, fuel, rest, _, _, _, hfuel, _ => by
      have htext : (render layout level (.bool true)).flatMap spell = "true".toList := render_ascii h rfl
      rw [htext] at hfuel ⊢
      exact valueFuel_word rfl (by simp at hfuel; omega) (.inl ⟨rfl, rfl, rfl⟩)
  | .bool false, level, deep, depth, fuel, rest, _, _, _, hfuel, _ => by
      have htext : (render layout level (.bool false)).flatMap spell = "false".toList := render_ascii h rfl
      rw [htext] at hfuel ⊢
      exact valueFuel_word rfl (by simp at hfuel; omega) (.inr (.inl ⟨rfl, rfl, rfl⟩))
  | .int n, level, deep, depth, fuel, rest, _, hprint, _, hfuel, hrest => by
      have hword : fitsWord n = true := by
        by_contra hwide
        simp [refusal?, hwide] at hprint
      have htext : (render layout level (.int n)).flatMap spell = (toString n).toList := by
        apply h.flatMap_ascii
        intro c hc
        exact ascii_of_mem_toString hc
      obtain ⟨c, chars, hcons, -⟩ := head_toString n
      rw [htext] at hfuel ⊢
      refine valueFuel_int hlimits ?_ hrest hword
      rw [hcons, List.length_cons] at hfuel
      omega
  | .double _, _, _, _, _, _, hlegible, _, _, _, _ => hlegible.elim
  | .torn, _, _, _, _, _, _, hprint, _, _, _ => by simp [refusal?] at hprint
  | .str s, level, deep, depth, fuel, rest, _, _, _, hfuel, _ => by
      refine valueFuel_quote h ?_ s
      simp only [render, quote_flatMap h, List.length_cons] at hfuel
      omega
  | .arr [], level, deep, depth, fuel, rest, _, hprint, hdeep, hfuel, _ => by
      have htext : (render layout level (.arr [])).flatMap spell = ['[', ']'] := render_ascii h rfl
      have hpos : 0 < deep := deep_pos_of_arr hprint
      rw [htext] at hfuel ⊢
      exact valueFuel_emptyArray (by simp at hfuel; omega) (by omega)
  | .arr (item :: items), level, deep, depth, fuel, rest, hlegible, hprint, hdeep, hfuel, _ => by
      have hpos : 0 < deep := deep_pos_of_arr hprint
      obtain ⟨deep, rfl⟩ := Nat.exists_eq_succ_of_ne_zero (Nat.ne_of_gt hpos)
      obtain ⟨depth, rfl⟩ := Nat.exists_eq_succ_of_ne_zero (by omega : depth ≠ 0)
      rw [flatMap_render_arr h] at hfuel ⊢
      simp only [List.length_cons, List.length_append] at hfuel
      obtain ⟨fuel, rfl⟩ := Nat.exists_eq_succ_of_ne_zero (by omega : fuel ≠ 0)
      simp only [List.cons_append, List.append_assoc, List.nil_append]
      exact valueFuel_array (itemsFuel_renderedItems h hlimits layout (item :: items) (by simp) (level + 1) deep depth
        fuel level [] rest hlegible hprint (by omega) (by omega))
  | .obj [], level, deep, depth, fuel, rest, _, hprint, hdeep, hfuel, _ => by
      have htext : (render layout level (.obj [])).flatMap spell = ['\x7b', '\x7d'] := render_ascii h rfl
      have hpos : 0 < deep := deep_pos_of_obj hprint
      rw [htext] at hfuel ⊢
      exact valueFuel_emptyObject (by simp at hfuel; omega) (by omega)
  | .obj (field :: fields), level, deep, depth, fuel, rest, hlegible, hprint, hdeep, hfuel, _ => by
      have hpos : 0 < deep := deep_pos_of_obj hprint
      obtain ⟨deep, rfl⟩ := Nat.exists_eq_succ_of_ne_zero (Nat.ne_of_gt hpos)
      obtain ⟨depth, rfl⟩ := Nat.exists_eq_succ_of_ne_zero (by omega : depth ≠ 0)
      rw [flatMap_render_obj h] at hfuel ⊢
      simp only [List.length_cons, List.length_append] at hfuel
      obtain ⟨fuel, rfl⟩ := Nat.exists_eq_succ_of_ne_zero (by omega : fuel ≠ 0)
      simp only [List.cons_append, List.append_assoc, List.nil_append]
      exact valueFuel_object (fieldsFuel_renderedFields h hlimits layout (field :: fields) (by simp) (level + 1) deep
        depth fuel level .empty rest hlegible.2 hlegible.1 hprint (by omega) (by omega))

theorem itemsFuel_renderedItems {spell : Char → List Char} (h : Respelling spell) {limits : ReadLimits}
    (hlimits : limits.KeepsWords) (layout : Layout) :
    ∀ (items : List Json), items ≠ [] →
      ∀ (level deep depth fuel outer : Nat) (seen : List Json) (rest : List Char), LegibleItems items →
      refusalItems? deep items = none → deep ≤ depth →
      2 * ((renderedItems layout level items).flatMap spell).length < fuel →
      itemsFuel limits fuel depth seen ((renderedItems layout level items).flatMap spell ++
        (layout.lineBreak outer ++ ']' :: rest)) = some (.arr (seen.reverse ++ items), rest)
  | [], hne => absurd rfl hne
  | item :: items, _ => by
      intro level deep depth fuel outer seen rest hlegible hprint hdeep hfuel
      obtain ⟨fuel, rfl⟩ := Nat.exists_eq_succ_of_ne_zero (by omega : fuel ≠ 0)
      obtain ⟨hitem, hitems⟩ := Option.or_eq_none_iff.1 hprint
      have hbreak : Ends (layout.lineBreak outer ++ ']' :: rest) :=
        layout.ends_lineBreak outer (ends_cons (by decide) rest)
      simp only [renderedItems, List.flatMap_append, layout.flatMap_lineBreak level h, List.length_append,
        List.append_assoc] at hfuel ⊢
      rw [itemsFuel, ← valueFuel_skipSpace, skipSpace_append (layout.isSpace_of_mem_lineBreak level),
        valueFuel_skipSpace, valueFuel_render h hlimits layout item level deep depth fuel _ hlegible.1 hitem hdeep
          (by omega) (ends_renderItems hbreak h items)]
      cases items with
      | nil =>
          simp only [renderItems, List.flatMap_nil, List.nil_append,
            skipSpace_append (layout.isSpace_of_mem_lineBreak outer), skipSpace_cons (c := ']') (by decide)]
          simp
      | cons next items =>
          have hcomma : spell ',' = [','] := h.ascii _ (by decide) (by decide)
          simp only [renderItems_cons, List.flatMap_cons, hcomma, List.cons_append, List.nil_append,
            skipSpace_cons (c := ',') (by decide), List.length_cons] at hfuel ⊢
          rw [itemsFuel_renderedItems h hlimits layout (next :: items) (by simp) level deep depth fuel outer
            (item :: seen) rest hlegible.2 hitems hdeep (by omega)]
          simp

theorem fieldsFuel_renderedFields {spell : Char → List Char} (h : Respelling spell) {limits : ReadLimits}
    (hlimits : limits.KeepsWords) (layout : Layout) :
    ∀ (fields : List (String × Json)), fields ≠ [] →
      ∀ (level deep depth fuel outer : Nat) (seen : Keyed Json) (rest : List Char), LegibleFields fields →
      (seen.keys ++ fields.map Prod.fst).Nodup → refusalFields? deep fields = none → deep ≤ depth →
      2 * ((renderedFields layout level fields).flatMap spell).length < fuel →
      fieldsFuel limits fuel depth seen ((renderedFields layout level fields).flatMap spell ++
        (layout.lineBreak outer ++ '}' :: rest)) = some (.obj (seen.entries ++ fields), rest)
  | [], hne => absurd rfl hne
  | (name, value) :: fields, _ => by
      intro level deep depth fuel outer seen rest hlegible hnames hprint hdeep hfuel
      obtain ⟨fuel, rfl⟩ := Nat.exists_eq_succ_of_ne_zero (by omega : fuel ≠ 0)
      obtain ⟨hvalue, hfields⟩ := Option.or_eq_none_iff.1 hprint
      have hbreak : Ends (layout.lineBreak outer ++ '\x7d' :: rest) :=
        layout.ends_lineBreak outer (ends_cons (by decide) rest)
      have hnew : name ∉ seen.keys := by
        intro hmem
        exact (List.nodup_append.1 hnames).2.2 name hmem name (by simp) rfl
      simp only [renderedFields, List.flatMap_append, layout.flatMap_lineBreak level h, layout.flatMap_colon h,
        List.length_append, List.append_assoc] at hfuel ⊢
      obtain ⟨blanks, hblanks, hname⟩ := fieldName?_quote h limits layout level name
        ((render layout level value).flatMap spell ++ ((renderFields layout level fields).flatMap spell ++
          (layout.lineBreak outer ++ '\x7d' :: rest)))
      rw [fieldsFuel, hname]
      simp only
      rw [← valueFuel_skipSpace, skipSpace_append hblanks, valueFuel_skipSpace,
        valueFuel_render h hlimits layout value level deep depth fuel _ hlegible.1 hvalue hdeep
          (by omega) (ends_renderFields hbreak h fields)]
      cases fields with
      | nil =>
          simp only [renderFields, List.flatMap_nil, List.nil_append,
            skipSpace_append (layout.isSpace_of_mem_lineBreak outer), skipSpace_cons (c := '\x7d') (by decide),
            Bool.false_eq_true, if_false, Keyed.entries_set_of_not_mem hnew]
      | cons next fields =>
          have hcomma : spell ',' = [','] := h.ascii _ (by decide) (by decide)
          have hnames' : ((seen.set name value).keys ++ (next :: fields).map Prod.fst).Nodup := by
            rw [Keyed.keys_set, if_neg hnew, List.append_assoc]
            exact hnames
          simp only [renderFields_cons, List.flatMap_cons, hcomma, List.cons_append, List.nil_append,
            skipSpace_cons (c := ',') (by decide), List.length_cons, Bool.false_eq_true, if_false] at hfuel ⊢
          rw [fieldsFuel_renderedFields h hlimits layout (next :: fields) (by simp) level deep depth fuel outer
            (seen.set name value) rest hlegible.2 hnames' hfields hdeep (by omega),
            Keyed.entries_set_of_not_mem hnew]
          simp

end

/-! ## Documents -/

/-- A written value, respelled or not, reads as the value where its containers may nest deep enough. -/
theorem read?_flatMap_render {spell : Char → List Char} (h : Respelling spell) {limits : ReadLimits}
    (hlimits : limits.KeepsWords) (layout : Layout) {value : Json} (hlegible : value.Legible) {deep : Nat}
    (hprint : refusal? deep value = none) (hdeep : deep ≤ limits.depth) :
    read? limits ((render layout 0 value).flatMap spell) = some value := by
  have hread := valueFuel_render h hlimits layout value 0 deep limits.depth
    (2 * ((render layout 0 value).flatMap spell).length + 2) [] hlegible hprint hdeep (by omega)
    (by intro c hc; cases hc)
  rw [List.append_nil] at hread
  rw [read?, hread]
  rfl

/-- A printed document, respelled or not, reads as the value. -/
theorem read?_respelled {spell : Char → List Char} (h : Respelling spell) (layout : Layout) {value : Json}
    (hlegible : value.Legible) (hprint : refusal? printDepth value = none) :
    read? storedLimits ((render layout 0 value).flatMap spell) = some value :=
  read?_flatMap_render h keepsWords_storedLimits layout hlegible hprint (by decide)

theorem read?_print {layout : Layout} {value : Json} {text : String} (hlegible : value.Legible)
    (h : value.print layout = .ok text) : read? storedLimits text.toList = some value := by
  unfold print at h
  split at h
  · cases h
  · next hprint =>
      obtain rfl : String.ofList (render layout 0 value) = text := by simpa using h
      have hread := read?_respelled respelling_self layout hlegible hprint
      rwa [List.flatMap_singleton', ← String.toList_ofList (l := render layout 0 value)] at hread

end ComponentBuilder.Json
