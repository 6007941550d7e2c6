import ComponentBuilder.Proofs.Markup.AttributeText
import ComponentBuilder.Proofs.Markup.Grammar
import Mathlib.Data.List.Nodup

/-!
# The order of written attributes

The key of an attribute that was read can be told from its text, so the text of some attributes
determines their order.
-/

namespace ComponentBuilder.Markup.AttributeList

open Text Scan

/-! ## Attributes that were read -/

/-- The forms that an attribute has when it was read. -/
inductive EntryShape : String → AttributeValue → Prop
  | named {key : String} {value : AttributeValue} (hname : IsName key.toList) : EntryShape key value
  | token {key : String} {c : Char} {rest : List Char} (hkey : key.toList = c :: rest)
      (hname : isNameChar c = false) (hbrace : c ≠ '\x7b') (hblank : ∀ d ∈ c :: rest, isBlank d = false) :
      EntryShape key (.flag true)
  | spread {key : String} (hkey : IsExpression key.toList) : EntryShape key (.flag true)

theorem Item.shape {text after : List Char} {entry : String × AttributeValue}
    (h : Item text entry after) : EntryShape entry.1 entry.2 := by
  cases h with
  | spread hsource => exact .spread (by rwa [String.toList_ofList])
  | @token c token after hblank hbrace hname htoken =>
      refine .token String.toList_ofList hname hbrace ?_
      intro d hd
      rcases List.mem_cons.1 hd with rfl | hd
      · exact hblank
      · exact htoken d hd
  | name hname => exact .named (by rwa [String.toList_ofList])
  | valued hname _ hvalue =>
      cases hvalue with
      | quoted | braced | unquoted => exact .named (by rwa [String.toList_ofList])

theorem Items.shape {text : List Char} {entries : List (String × AttributeValue)}
    (h : Items text entries) : ∀ entry ∈ entries, EntryShape entry.1 entry.2 := by
  induction h with
  | nil => simp
  | cons _ hitem _ ih =>
      intro entry hentry
      rcases List.mem_cons.1 hentry with rfl | hentry
      · exact hitem.shape
      · exact ih entry hentry

theorem mem_setAll {attributes : Attributes} {entries : List (String × AttributeValue)}
    {entry : String × AttributeValue} (h : entry ∈ (setAll attributes entries).entries) :
    entry ∈ attributes.entries ∨ entry ∈ entries := by
  induction entries generalizing attributes with
  | nil => exact .inl h
  | cons other entries ih =>
      rcases ih h with h | h
      · rcases Keyed.mem_entries_set h with rfl | h
        · exact .inr List.mem_cons_self
        · exact .inl h
      · exact .inr (List.mem_cons_of_mem _ h)

theorem shape_of_read {text : List Char} {attributes : Attributes} (h : read text = .ok attributes) :
    ∀ entry ∈ attributes.entries, EntryShape entry.1 entry.2 := by
  obtain ⟨entries, hitems, rfl⟩ := read_eq_ok_iff.1 h
  intro entry hentry
  rcases mem_setAll hentry with hentry | hentry
  · cases hentry
  · exact hitems.shape entry hentry

/-! ## Keys -/

/-- The key of the attribute whose text comes first. -/
def keyOf (text : List Char) : List Char :=
  if text.head? = some '\x7b' then
    match Scan.expression 0 text with
    | .error _ => []
    | .ok (source, _) => source
  else if (text.takeWhile isNameChar).isEmpty then text.takeWhile (!isBlank ·)
  else text.takeWhile isNameChar

theorem exists_renderAttribute_eq (key : String) (value : AttributeValue) :
    ∃ more, renderAttribute key value = key.toList ++ more ∧ (more = [] ∨ more.head? = some '=') := by
  cases value with
  | flag on =>
      cases on with
      | true => exact ⟨[], by simp [renderAttribute], .inl rfl⟩
      | false => exact ⟨_, rfl, .inr rfl⟩
  | text value => exact ⟨_, rfl, .inr rfl⟩
  | expression source => exact ⟨_, rfl, .inr rfl⟩

theorem keyOf_renderAttribute {key : String} {value : AttributeValue} (h : EntryShape key value)
    {after : List Char} (hafter : ∀ c, after.head? = some c → isBlank c = true) :
    keyOf (renderAttribute key value ++ after) = key.toList := by
  cases h with
  | named hname =>
      obtain ⟨more, hrender, hmore⟩ := exists_renderAttribute_eq key value
      have hstops : Stops isNameChar (more ++ after) := by
        intro c hc
        rcases hmore with rfl | hmore
        · exact isNameChar_eq_false_of_isBlank (hafter c hc)
        · rw [List.head?_append, hmore] at hc
          obtain rfl : '=' = c := Option.some.inj hc
          rfl
      obtain ⟨c, rest, hcons, hc⟩ := hname.exists_cons
      have hbrace : c ≠ '\x7b' := ne_of_passes hc (by decide)
      have htake : (key.toList ++ (more ++ after)).takeWhile isNameChar = key.toList :=
        takeWhile_append_stops hname.2 hstops
      rw [hrender, List.append_assoc]
      unfold keyOf
      rw [htake]
      simp [hcons, hbrace]
  | @token c rest hkey hname hbrace hblank =>
      have hstops : Stops (!isBlank ·) after := fun d hd => by simp [hafter d hd]
      have hall : ∀ d ∈ c :: rest, (!isBlank d) = true := fun d hd => by simp [hblank d hd]
      have htake := takeWhile_append_stops hall hstops
      simp only [renderAttribute, hkey, keyOf, List.cons_append, List.head?_cons, Option.some.injEq,
        hbrace, if_false] at htake ⊢
      rw [List.takeWhile_cons_of_neg (by simp [hname]), List.isEmpty_nil, if_pos rfl, htake]
  | spread hkey =>
      obtain ⟨inside, hcons⟩ := hkey.eq_cons
      have hscan : Scan.expression 0 (key.toList ++ after) = .ok (key.toList, after) :=
        expression_eq_ok_iff.2 ⟨hkey, rfl⟩
      have hhead : (key.toList ++ after).head? = some '\x7b' := by simp [hcons]
      simp only [renderAttribute, keyOf, hhead, if_true, hscan]

theorem head?_renderEntries (entries : List (String × AttributeValue)) :
    ∀ c, (renderEntries entries).head? = some c → isBlank c = true := by
  intro c hc
  cases entries with
  | nil => simp [renderEntries] at hc
  | cons entry entries =>
      obtain rfl : ' ' = c := by simpa [renderEntries] using hc
      decide

/-- The order of attributes that were read can be told from their text. -/
theorem entries_eq_of_perm {entries entries' : List (String × AttributeValue)}
    (hperm : entries.Perm entries') (hdistinct : (entries.map Prod.fst).Nodup)
    (hshape : ∀ entry ∈ entries, EntryShape entry.1 entry.2)
    (htext : renderEntries entries = renderEntries entries') : entries = entries' := by
  induction entries generalizing entries' with
  | nil => exact (List.nil_perm.1 hperm).symm
  | cons entry entries ih =>
      cases entries' with
      | nil => exact absurd hperm (by simp)
      | cons entry' entries' =>
          have hmem : entry' ∈ entry :: entries := hperm.mem_iff.2 List.mem_cons_self
          have hcons (entry : String × AttributeValue) (entries : List (String × AttributeValue)) :
              renderEntries (entry :: entries) =
                ' ' :: (renderAttribute entry.1 entry.2 ++ renderEntries entries) := by
            simp [renderEntries]
          rw [hcons, hcons, List.cons.injEq] at htext
          have hkey : entry.1 = entry'.1 := by
            have hfirst := keyOf_renderAttribute (hshape entry List.mem_cons_self)
              (head?_renderEntries entries)
            have hsecond := keyOf_renderAttribute (hshape entry' hmem) (head?_renderEntries entries')
            rw [htext.2, hsecond] at hfirst
            exact (String.toList_inj.1 hfirst).symm
          obtain rfl : entry = entry' :=
            List.inj_on_of_nodup_map hdistinct List.mem_cons_self hmem hkey
          have hrest := List.append_cancel_left htext.2
          rw [List.map_cons, List.nodup_cons] at hdistinct
          rw [ih hperm.cons_inv hdistinct.2 (fun other hother => hshape other (by simp [hother])) hrest]

end ComponentBuilder.Markup.AttributeList
