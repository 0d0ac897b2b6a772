import ContestInput.Proofs.Json.Record
import ContestInput.Wire.Problem
/-!
# Texts that present problems

Which documents present sizes, definitions, sources, constants and problems; and that a text is
read as a problem exactly if it spells a document that presents the problem.
-/

namespace ContestInput

open Json

/-- A size is an unsigned integer below 2^64, or a string that is read as a size. -/
inductive Size.IsPresented : Document → Size → Prop where
  | count (w : UInt64) : IsPresented (.number (.natural w)) (.literal w)
  | text {s : String} {size : Size} : Size.read s = .ok size →
      IsPresented (.string (some s)) size

/-- Layouts and items go by their own names, and three of them by a second one. -/
def Definition.parts : List (Component Definition) :=
  [⟨Layout, "container", layout,
     IsChoice [("single", .single), ("harray", .harray), ("h-array", .harray),
       ("varray", .varray), ("v-array", .varray), ("matrix", .matrix)], none⟩,
   ⟨Item, "item", item,
     IsChoice [("number", .number), ("string", .string), ("char", .char), ("character", .char)],
     none⟩,
   ⟨List String, "names", names, IsList IsString, none⟩,
   ⟨List Size, "size", sizes, IsList Size.IsPresented, some []⟩]

def Source.parts : List (Component Source) :=
  [⟨String, "ext", extension, IsString, none⟩, ⟨String, "txt", text, IsString, none⟩]

def Constant.parts : List (Component Constant) :=
  [⟨String, "name", name, IsString, none⟩, ⟨UInt64, "value", value, IsWord, none⟩]

def Problem.parts : List (Component Problem) :=
  [⟨String, "q", id, IsString, none⟩,
   ⟨String, "desc", description, IsString, some ""⟩,
   ⟨List Definition, "defs", definitions, IsList (IsRecord Definition.parts), some []⟩,
   ⟨List Source, "srcs", sources, IsList (IsRecord Source.parts), some []⟩]

theorem Size.reads (depth : Nat) : Reader.Reads (Size.ofJson depth) Size.IsPresented := by
  intro d size
  constructor
  · intro h
    unfold ofJson at h
    split at h
    · exact absurd h (by simp)
    · split at h
      · rename_i w htree
        obtain rfl := Except.ok.inj h
        cases d with
        | number n =>
          obtain rfl := Tree.number.inj htree
          exact .count w
        | _ => exact absurd htree (by simp [Document.tree])
      · rename_i s htree
        split at h
        · rename_i hread
          obtain rfl := Except.ok.inj h
          cases d with
          | string s' =>
            obtain rfl := Tree.string.inj htree
            exact .text hread
          | _ => exact absurd htree (by simp [Document.tree])
        · exact absurd h (by simp)
      · exact absurd h (by simp)
  · intro h
    cases h with
    | count w => rfl
    | text hread => simp [ofJson, Document.tree, Tree.isSound, hread]

private theorem Layout.names_nodup : (Layout.names.map (·.1)).Nodup := by decide

private theorem Item.names_nodup : (Item.names.map (·.1)).Nodup := by decide

theorem Definition.record_madeOf (depth : Nat) :
    (Definition.record depth).MadeOf Definition.parts where
  fields := by
    refine .cons (.of rfl (Reader.reads_tag Layout.names_nodup (by decide)) (fun _ _ => rfl) ?_) <|
      .cons (.of rfl (Reader.reads_tag Item.names_nodup (by decide)) (fun _ _ => rfl) ?_) <|
      .cons (.of rfl (Reader.reads_list Reader.reads_string) (fun _ _ => rfl) ?_) <|
      .cons (.of rfl (Reader.reads_list (Size.reads _)) (fun _ _ => rfl) ?_) .nil
    all_goals simp [parts]
  names := by decide
  blank := by simp [parts, record]
  ext := by
    rintro ⟨layout, item, names, sizes⟩ ⟨layout', item', names', sizes'⟩ h
    simpa [parts, and_assoc] using h

theorem Source.record_madeOf : Source.record.MadeOf Source.parts where
  fields := by
    refine .cons (.of rfl Reader.reads_string (fun _ _ => rfl) ?_) <|
      .cons (.of rfl Reader.reads_string (fun _ _ => rfl) ?_) .nil
    all_goals simp [parts]
  names := by decide
  blank := by simp [parts]
  ext := by
    rintro ⟨extension, text⟩ ⟨extension', text'⟩ h
    simpa [parts] using h

theorem Constant.record_madeOf : Constant.record.MadeOf Constant.parts where
  fields := by
    refine .cons (.of rfl Reader.reads_string (fun _ _ => rfl) ?_) <|
      .cons (.of rfl Reader.reads_word (fun _ _ => rfl) ?_) .nil
    all_goals simp [parts]
  names := by decide
  blank := by simp [parts]
  ext := by
    rintro ⟨name, value⟩ ⟨name', value'⟩ h
    simpa [parts] using h

theorem Problem.record_madeOf : Problem.record.MadeOf Problem.parts where
  fields := by
    refine .cons (.of rfl Reader.reads_string (fun _ _ => rfl) ?_) <|
      .cons (.of rfl Reader.reads_string (fun _ _ => rfl) ?_) <|
      .cons (.of rfl (Reader.reads_list (Definition.record_madeOf 2).reads) (fun _ _ => rfl) ?_) <|
      .cons (.of rfl (Reader.reads_list Source.record_madeOf.reads) (fun _ _ => rfl) ?_) .nil
    all_goals simp [parts]
  names := by decide
  blank := by simp [parts, record, empty]
  ext := by
    rintro ⟨id, description, definitions, sources⟩ ⟨id', description', definitions', sources'⟩ h
    simpa [parts, and_assoc] using h

/-- The texts that are read as problems are those that spell a document which presents a problem,
and that problem is what is read; every other text is told to be no definition. -/
theorem Problem.read_eq_ok_iff_presented (text : String) :
    (∀ p, read text = .ok p ↔
      ∃ d : Document, Spells text.toList d.tokens ∧ IsRecord Problem.parts d p) ∧
    ((¬ ∃ (p : Problem) (d : Document), Spells text.toList d.tokens ∧ IsRecord Problem.parts d p) →
      ∃ cause, read text = .error (.badJson cause)) := by
  have hread (p : Problem) : read text = .ok p ↔
      ∃ d : Document, Spells text.toList d.tokens ∧ IsRecord Problem.parts d p := by
    rw [← Reader.text_eq_ok_iff record_madeOf.reads fun _ _ => Record.isComplete_of_read, read]
    cases record.read.text text with
    | error cause => simp [Except.mapError]
    | ok p => simp [Except.mapError]
  refine ⟨hread, fun hnone => ?_⟩
  cases h : record.read.text text with
  | error cause => exact ⟨cause, by rw [read, h]; rfl⟩
  | ok p =>
    have hp : read text = .ok p := by rw [read, h]; rfl
    exact absurd ⟨p, (hread p).1 hp⟩ hnone

/-- Second names, an object for a name, a size between spaces and unknown members that are out of
range present a problem. A name with a capital presents none. -/
theorem Problem.read_eq_ok_iff_presented_aliases :
    let text := "\x7b\"x\":[1e999],\"defs\":[\x7b\"item\":\x7b\"character\":null\x7d," ++
      "\"names\":[\"S\"],\"size\":[\" 05 \"],\"container\":\"h-array\"\x7d]," ++
      "\"x\":\"\\ud800\",\"q\":\"\\u0061\"\x7d"
    let capital := "[\"a\",\"\",[[\"Single\",\"number\",[\"N\"]]]]"
    let p : Problem := ⟨"a", "", [⟨.harray, .char, ["S"], [.literal 5]⟩], []⟩
    (∃ d : Document, Spells text.toList d.tokens ∧ IsRecord Problem.parts d p) ∧
      ∃ cause, read capital = .error (.badJson cause) := by
  intro text capital p
  constructor
  · exact ((read_eq_ok_iff_presented text).1 p).1 (by decide +kernel)
  · have hcapital : (read capital).isOk = false := by decide +kernel
    refine (read_eq_ok_iff_presented capital).2 ?_
    rintro ⟨q, hq⟩
    rw [((read_eq_ok_iff_presented capital).1 q).2 hq] at hcapital
    exact absurd hcapital (by simp [Except.isOk, Except.toBool])

end ContestInput
