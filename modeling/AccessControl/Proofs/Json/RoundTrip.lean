import AccessControl.Json.Printer
import AccessControl.Proofs.Json.Reading

/-!
Reading undoes printing: the printed form of a value whose strings and names are texts and whose numbers can be written
is one of its texts (`spelt_print`), so the value is read back from the bytes of it (`readWholeText_render`).
-/

namespace AccessControl

namespace Json

/-! ### Values with a written form -/

mutual

/-- A value that its printed form shows in full. -/
def Writable : Json → Prop
  | number n => n.Writable
  | string t => t.isOk = true
  | array items => WritableItems items
  | object members => WritableMembers members
  | broken => False
  | _ => True

def WritableItems : List Json → Prop
  | [] => True
  | v :: rest => v.Writable ∧ WritableItems rest

def WritableMembers : List (Option String × Json) → Prop
  | [] => True
  | (name, v) :: rest => name.isSome = true ∧ v.Writable ∧ WritableMembers rest

end

theorem writableItems_iff {items : List Json} : WritableItems items ↔ ∀ v ∈ items, v.Writable := by
  induction items with
  | nil => simp [WritableItems]
  | cons v rest ih => rw [WritableItems, ih, List.forall_mem_cons]

theorem writableMembers_iff {members : List (Option String × Json)} :
    WritableMembers members ↔ ∀ m ∈ members, m.1.isSome = true ∧ m.2.Writable := by
  induction members with
  | nil => simp [WritableMembers]
  | cons m rest ih =>
      obtain ⟨name, v⟩ := m
      rw [WritableMembers, ih, List.forall_mem_cons, and_assoc]

/-! ### The tokens of a printed value -/

mutual

theorem written_print : ∀ v : Json, v.Writable → ∃ tokens, Written v tokens ∧ tokens.flatten = (print v).map some
  | null, _ => ⟨_, .null, by rw [print]; rfl⟩
  | bool true, _ => ⟨_, .yes, by rw [print]; rfl⟩
  | bool false, _ => ⟨_, .no, by rw [print]; rfl⟩
  | number n, hv => by
      rw [Writable] at hv
      exact ⟨_, .number (spellsNumeral_printed hv), by rw [print, List.flatten_singleton]⟩
  | string (.error _), hv => by
      rw [Writable] at hv
      exact absurd hv Bool.false_ne_true
  | string (.ok t), _ => ⟨_, .string (spellsString_printed t), by rw [print, List.flatten_singleton]; rfl⟩
  | array items, hv => by
      rw [Writable] at hv
      obtain ⟨tokens, hitems, hprint⟩ := written_printItems items hv
      exact ⟨_, .array hitems, by rw [List.flatten_cons, hprint, print]; rfl⟩
  | object members, hv => by
      rw [Writable] at hv
      obtain ⟨tokens, hmembers, hprint⟩ := written_printMembers members hv
      exact ⟨_, .object hmembers, by rw [List.flatten_cons, hprint, print]; rfl⟩
  | broken, hv => by
      rw [Writable] at hv
      exact hv.elim

theorem written_printItems : ∀ items : List Json, WritableItems items →
    ∃ tokens, WrittenItems items tokens ∧ tokens.flatten = (printItems items).map some
  | [], _ => ⟨_, .none, by rw [printItems]; rfl⟩
  | [v], hv => by
      rw [WritableItems] at hv
      obtain ⟨tokens, hfirst, hprint⟩ := written_print v hv.1
      exact ⟨_, .last hfirst, by rw [List.flatten_append, hprint, printItems, List.map_append]; rfl⟩
  | v :: w :: rest, hv => by
      rw [WritableItems] at hv
      obtain ⟨tokens, hfirst, hprint⟩ := written_print v hv.1
      obtain ⟨tokens', hothers, hprint'⟩ := written_printItems (w :: rest) hv.2
      refine ⟨_, .more hfirst hothers, ?_⟩
      rw [printItems, List.flatten_append, List.flatten_cons, hprint, hprint', List.map_append]
      · rfl
      · exact List.cons_ne_nil _ _

theorem written_printMembers : ∀ members : List (Option String × Json), WritableMembers members →
    ∃ tokens, WrittenMembers members tokens ∧ tokens.flatten = (printMembers members).map some
  | [], _ => ⟨_, .none, by rw [printMembers]; rfl⟩
  | (none, _) :: _, hv => by
      rw [WritableMembers] at hv
      exact absurd hv.1 Bool.false_ne_true
  | [(some t, v)], hv => by
      rw [WritableMembers] at hv
      obtain ⟨tokens, hfirst, hprint⟩ := written_print v hv.2.1
      refine ⟨_, .last (spellsString_printed t) hfirst, ?_⟩
      simp only [List.flatten_cons, List.flatten_append, hprint, printMembers, List.map_append, List.map_cons]
      rfl
  | (some t, v) :: m :: rest, hv => by
      rw [WritableMembers] at hv
      obtain ⟨tokens, hfirst, hprint⟩ := written_print v hv.2.1
      obtain ⟨tokens', hothers, hprint'⟩ := written_printMembers (m :: rest) hv.2.2
      refine ⟨_, .more (spellsString_printed t) hfirst hothers, ?_⟩
      rw [printMembers]
      · simp only [List.flatten_cons, List.flatten_append, hprint, hprint', List.map_append, List.map_cons]
        rfl
      · exact List.cons_ne_nil _ _

end

theorem spaced_flatten (tokens : List Token) : Spaced tokens tokens.flatten := by
  induction tokens with
  | nil => exact .nil
  | cons token tokens ih => exact .cons allSpace_nil ih

/-- The printed form of a value is one of its texts. -/
theorem spelt_print {v : Json} (hv : v.Writable) : Spelt v ((print v).map some) := by
  obtain ⟨tokens, hwritten, hprint⟩ := written_print v hv
  exact ⟨tokens, hwritten, _, [], hprint ▸ spaced_flatten tokens, allSpace_nil, (List.append_nil _).symm⟩

/-! ### Whole texts -/

theorem ofBytes_toUTF8 (t : String) : Glyph.ofBytes t.toUTF8 = Glyph.ofString t := by
  have hvalid : t.toUTF8.IsValidUTF8 := t.isValidUTF8
  have htext : String.fromUTF8? t.toUTF8 = some t := by
    rw [String.fromUTF8?, dif_pos hvalid]
    rfl
  rw [Glyph.ofBytes, htext]

theorem spelt_render {v : Json} (hv : v.Writable) : Spelt v (Glyph.ofBytes v.render.toUTF8) := by
  rw [ofBytes_toUTF8, Glyph.ofString, render, String.toList_ofList]
  exact spelt_print hv

/-- A text printed from a value reads as that value does. -/
theorem readWholeText_render {α : Type} (f : Json → Read α) {v : Json} (hv : v.Writable) :
    readWholeText f (Glyph.ofBytes v.render.toUTF8) = f v :=
  (spelt_render hv).readWholeText f

end Json

end AccessControl
