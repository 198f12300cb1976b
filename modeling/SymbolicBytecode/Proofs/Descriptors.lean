import Mathlib
import SymbolicBytecode.Execution.Invocation
import SymbolicBytecode.Proofs.Sequencing

/-!
# Types and their descriptors

A `;` ends a class name in a descriptor, so the name must not be empty or have a `;` of its own.
Types with such names only correspond to their descriptors one to one: a written type is read back,
whatever follows it, and a text that can be read is the descriptor of what was read. The types of
a method descriptor need no separators for the same reason.
-/
namespace SymbolicBytecode

/-- What is read back from its text has a text of its own. -/
theorem injOn_of_parse {α ε : Type} {parse : String → Except ε α} {text : α → String}
    {P : α → Prop} (h : ∀ {s a}, parse s = .ok a ↔ P a ∧ text a = s) :
    Set.InjOn text {a | P a} := by
  intro a ha b hb htext
  have hparse : parse (text a) = .ok a := h.2 ⟨ha, rfl⟩
  have hother : parse (text a) = .ok b := h.2 ⟨hb, htext.symm⟩
  exact Except.ok.inj (hparse.symm.trans hother)

namespace FieldType

variable {t : FieldType} {cs rest : List Char} {s : String}

/-- The class names in a type are not empty and have no `;`. -/
def Delimited : FieldType → Prop
  | reference name => name ≠ "" ∧ ';' ∉ name.toList
  | array component => component.Delimited
  | _ => True

/-- The grammar of descriptors. -/
inductive IsDescriptor : List Char → Prop where
  | primitive {c : Char} (hc : c ∈ ['B', 'C', 'D', 'F', 'I', 'J', 'S', 'Z']) : IsDescriptor [c]
  | reference {name : List Char} (hname : name ≠ []) (hplain : ';' ∉ name) :
      IsDescriptor ('L' :: (name ++ [';']))
  | array {component : List Char} (hcomponent : IsDescriptor component) :
      IsDescriptor ('[' :: component)

/-- The text up to the first `;` is the class name. -/
theorem readName_append {name : List Char} (hname : name ≠ []) (hplain : ';' ∉ name)
    (rest : List Char) :
    readName (name ++ ';' :: rest) = some (reference (String.ofList name), rest) := by
  have hpass : ∀ c ∈ name, decide (c ≠ ';') = true := by
    intro c hc
    exact decide_eq_true fun heq => hplain (heq ▸ hc)
  have htake : (name ++ ';' :: rest).takeWhile (· ≠ ';') = name := by
    rw [List.takeWhile_append_of_pos hpass]
    simp
  have hdrop : (name ++ ';' :: rest).dropWhile (· ≠ ';') = ';' :: rest := by
    rw [List.dropWhile_append_of_pos hpass]
    simp
  obtain ⟨c, tail, rfl⟩ := List.exists_cons_of_ne_nil hname
  unfold readName
  rw [htake, hdrop]

theorem delimited_of_readName (h : readName cs = some (t, rest)) : t.Delimited := by
  unfold readName at h
  split at h
  · next c name _ _ htake _ =>
    cases h
    refine ⟨by simp, ?_⟩
    rw [String.toList_ofList, ← htake]
    intro hmem
    simpa using List.mem_takeWhile_imp hmem
  · cases h

/-- A written type is taken off the front of a text, whatever follows it. -/
theorem read_chars_append (ht : t.Delimited) (rest : List Char) :
    read (t.chars ++ rest) = some (t, rest) := by
  induction t with
  | reference name =>
    obtain ⟨hname, hplain⟩ := ht
    have hread := readName_append (mt String.toList_eq_nil_iff.1 hname) hplain rest
    rw [String.ofList_toList] at hread
    simpa only [chars, List.cons_append, List.append_assoc, List.nil_append, read] using hread
  | array component ih => rw [chars, List.cons_append, read, ih ht, Option.map_some]
  | _ => rfl

theorem delimited_of_read (h : read cs = some (t, rest)) : t.Delimited := by
  fun_induction read cs generalizing t with
  | case9 cs => exact delimited_of_readName h
  | case10 cs ih =>
    obtain ⟨⟨component, rest'⟩, hcomponent, heq⟩ := Option.map_eq_some_iff.1 h
    cases heq
    have hwithin : component.Delimited := ih hcomponent
    exact hwithin
  | case11 => cases h
  | _ => cases h; trivial

theorem read_eq_some_iff : read cs = some (t, rest) ↔ t.Delimited ∧ cs = t.chars ++ rest := by
  constructor
  · intro h
    exact ⟨delimited_of_read h, eq_of_read h⟩
  · rintro ⟨ht, rfl⟩
    exact read_chars_append ht rest

theorem parse_ok_iff : parse s = .ok t ↔ t.Delimited ∧ t.text = s := by
  have hparse : parse s = .ok t ↔ read s.toList = some (t, []) := by
    unfold parse
    split
    · next u hread => simp [hread]
    · next hnone => simpa using hnone t
  rw [hparse, read_eq_some_iff, List.append_nil, text, eq_comm (a := s.toList), String.ofList_eq]

theorem Delimited.isDescriptor (ht : t.Delimited) : IsDescriptor t.chars := by
  induction t with
  | reference name =>
    obtain ⟨hname, hplain⟩ := ht
    exact .reference (mt String.toList_eq_nil_iff.1 hname) hplain
  | array component ih => exact .array (ih ht)
  | _ => exact .primitive (by simp)

/-- What follows the grammar is the descriptor of a type. -/
theorem IsDescriptor.exists_chars (h : IsDescriptor cs) :
    ∃ t : FieldType, t.Delimited ∧ t.chars = cs := by
  induction h with
  | primitive hc =>
    simp only [List.mem_cons, List.not_mem_nil, or_false] at hc
    rcases hc with rfl | rfl | rfl | rfl | rfl | rfl | rfl | rfl
    · exact ⟨byte, trivial, rfl⟩
    · exact ⟨char, trivial, rfl⟩
    · exact ⟨double, trivial, rfl⟩
    · exact ⟨float, trivial, rfl⟩
    · exact ⟨int, trivial, rfl⟩
    · exact ⟨long, trivial, rfl⟩
    · exact ⟨short, trivial, rfl⟩
    · exact ⟨boolean, trivial, rfl⟩
  | @reference name hname hplain =>
    refine ⟨.reference (String.ofList name), ⟨?_, ?_⟩, ?_⟩
    · simpa using hname
    · rwa [String.toList_ofList]
    · rw [chars, String.toList_ofList]
  | array _ ih =>
    obtain ⟨t, ht, rfl⟩ := ih
    exact ⟨.array t, ht, rfl⟩

/-- The descriptors are the texts that can be read. -/
theorem exists_parse_ok_iff (s : String) : (∃ t, parse s = .ok t) ↔ IsDescriptor s.toList := by
  simp only [parse_ok_iff]
  constructor
  · rintro ⟨t, ht, rfl⟩
    rw [text, String.toList_ofList]
    exact ht.isDescriptor
  · intro h
    obtain ⟨t, ht, hchars⟩ := h.exists_chars
    exact ⟨t, ht, String.ofList_eq.2 hchars⟩

/-- **Types and descriptors correspond.** A text is read as a type if and only if the class names in
the type are delimited and the text is its descriptor. Writing is thus a bijection from the types
with delimited names to the texts of the grammar, and these are the only texts that are read. -/
theorem text_bijective :
    (∀ s t, parse s = .ok t ↔ t.Delimited ∧ t.text = s) ∧
    Set.BijOn text {t | t.Delimited} {s | IsDescriptor s.toList} ∧
    ∀ s, (∃ t, parse s = .ok t) ↔ IsDescriptor s.toList := by
  refine ⟨fun s t => parse_ok_iff, ⟨?_, injOn_of_parse parse_ok_iff, ?_⟩, exists_parse_ok_iff⟩
  · intro t ht
    exact (exists_parse_ok_iff _).1 ⟨t, parse_ok_iff.2 ⟨ht, rfl⟩⟩
  · intro s hs
    obtain ⟨t, hparse⟩ := (exists_parse_ok_iff s).2 hs
    exact ⟨t, parse_ok_iff.1 hparse⟩

end FieldType

namespace MethodDescriptor

variable {d : MethodDescriptor} {ts : List FieldType} {r : Option FieldType} {cs rest : List Char}
  {s : String}

/-- The class names in the parameters and the result are delimited. -/
structure Delimited (d : MethodDescriptor) : Prop where
  params : ∀ t ∈ d.params, t.Delimited
  result : ∀ t ∈ d.result, t.Delimited

theorem delimited_iff {params : List FieldType} {result : Option FieldType} :
    Delimited ⟨params, result⟩ ↔ (∀ t ∈ params, t.Delimited) ∧ ∀ t ∈ result, t.Delimited :=
  ⟨fun h => ⟨h.params, h.result⟩, fun h => ⟨h.1, h.2⟩⟩

theorem readTypes_of_none (h : FieldType.read cs = none) : readTypes cs = ([], cs) := by
  unfold readTypes
  split
  · rfl
  · next hsome => simp [h] at hsome

theorem readTypes_of_some {t : FieldType} (h : FieldType.read cs = some (t, rest)) :
    readTypes cs = (t :: (readTypes rest).1, (readTypes rest).2) := by
  rw [readTypes]
  split
  · next hnone => simp [h] at hnone
  · next hsome =>
    cases h.symm.trans hsome
    rfl

/-- Types that stand side by side are told apart, up to a text that starts with none. -/
theorem readTypes_append (hts : ∀ t ∈ ts, t.Delimited) (hrest : FieldType.read rest = none) :
    readTypes (ts.flatMap FieldType.chars ++ rest) = (ts, rest) := by
  induction ts with
  | nil => exact readTypes_of_none hrest
  | cons t ts ih =>
    have hfirst := FieldType.read_chars_append (hts t (by simp))
      (ts.flatMap FieldType.chars ++ rest)
    rw [List.flatMap_cons, List.append_assoc, readTypes_of_some hfirst,
      ih fun u hu => hts u (by simp [hu])]

theorem eq_of_readTypes (h : readTypes cs = (ts, rest)) :
    (∀ t ∈ ts, t.Delimited) ∧ cs = ts.flatMap FieldType.chars ++ rest := by
  induction cs using readTypes.induct generalizing ts with
  | case1 cs hnone =>
    rw [readTypes_of_none hnone] at h
    cases h
    exact ⟨by simp, rfl⟩
  | case2 cs t tail hsome us rest' htail ih =>
    rw [readTypes_of_some hsome, htail] at h
    cases h
    obtain ⟨ht, rfl⟩ := FieldType.read_eq_some_iff.1 hsome
    obtain ⟨hus, rfl⟩ := ih htail
    refine ⟨by simpa using ⟨ht, hus⟩, ?_⟩
    rw [List.flatMap_cons, List.append_assoc]

/-- No type starts with the mark of a method without a result. -/
theorem readResult_of_read {t : FieldType} (h : FieldType.read cs = some (t, rest)) :
    readResult cs = some (some t, rest) := by
  unfold readResult
  split
  · cases h
  · rw [h, Option.map_some]

theorem readResult_eq_some_iff :
    readResult cs = some (r, rest) ↔
      (∀ t ∈ r, t.Delimited) ∧ cs = (r.map FieldType.chars).getD ['V'] ++ rest := by
  constructor
  · intro h
    unfold readResult at h
    split at h
    · cases h
      simp
    · obtain ⟨⟨t, tail⟩, hread, heq⟩ := Option.map_eq_some_iff.1 h
      cases heq
      simpa using FieldType.read_eq_some_iff.1 hread
  · rintro ⟨hr, rfl⟩
    cases r with
    | none => rfl
    | some t => exact readResult_of_read (FieldType.read_chars_append (hr t rfl) rest)

theorem read_eq_some_iff : read cs = some (d, rest) ↔ d.Delimited ∧ cs = d.chars ++ rest := by
  constructor
  · intro h
    unfold read at h
    split at h
    · next cs =>
      split at h
      · next params tail htypes =>
        obtain ⟨⟨result, rest'⟩, hread, heq⟩ := Option.map_eq_some_iff.1 h
        cases heq
        obtain ⟨hparams, rfl⟩ := eq_of_readTypes htypes
        obtain ⟨hresult, rfl⟩ := readResult_eq_some_iff.1 hread
        exact ⟨⟨hparams, hresult⟩, by simp [chars]⟩
      · cases h
    · cases h
  · rintro ⟨⟨hparams, hresult⟩, rfl⟩
    have hend : readResult ((d.result.map FieldType.chars).getD ['V'] ++ rest) =
        some (d.result, rest) := readResult_eq_some_iff.2 ⟨hresult, rfl⟩
    -- the parenthesis is what ends the parameters: no type starts with it
    have hclose (tail : List Char) : FieldType.read (')' :: tail) = none := rfl
    have htypes := readTypes_append hparams
      (hclose ((d.result.map FieldType.chars).getD ['V'] ++ rest))
    rw [chars, List.cons_append, List.append_assoc, List.cons_append]
    simp only [read, htypes, hend, Option.map_some]

theorem parse_ok_iff : parse s = .ok d ↔ d.Delimited ∧ d.text = s := by
  have hparse : parse s = .ok d ↔ read s.toList = some (d, []) := by
    unfold parse
    split
    · next d' hread => simp [hread]
    · next hnone => simpa using hnone d
  rw [hparse, read_eq_some_iff, List.append_nil, text, eq_comm (a := s.toList), String.ofList_eq]

theorem paramSlots_eq_sum (d : MethodDescriptor) :
    d.paramSlots = (d.params.map fun t => if t.isWide then 2 else 1).sum := by
  rw [paramSlots, List.sum_eq_foldl, List.foldl_map]

theorem text_eq (d : MethodDescriptor) :
    d.text = "(" ++ String.join (d.params.map FieldType.text) ++ ")" ++
      (d.result.map FieldType.text).getD "V" := by
  have hresult : ((d.result.map FieldType.text).getD "V").toList =
      (d.result.map FieldType.chars).getD ['V'] := by
    cases d.result with
    | none => rfl
    | some t => exact String.toList_ofList
  have hparams : (String.join (d.params.map FieldType.text)).toList =
      d.params.flatMap FieldType.chars := by
    simp [List.flatMap_map, FieldType.text]
  rw [← String.toList_inj, text, String.toList_ofList]
  simp [chars, hresult, hparams]

/-- **Method descriptors are read in one way.** A text is read as parameters and a result if and
only if it is made up of their descriptors, with delimited class names. No other parameters and
result have that text, so the operands that a call takes, and the local variable slots of the
parameters, are those of the only types that the text can be made up of. -/
theorem text_unambiguous :
    (∀ s params result, parse s = .ok ⟨params, result⟩ ↔
      (∀ t ∈ params, t.Delimited) ∧ (∀ t ∈ result, t.Delimited) ∧
      s = "(" ++ String.join (params.map FieldType.text) ++ ")" ++
        (result.map FieldType.text).getD "V") ∧
    Set.InjOn text {d | d.Delimited} ∧
    (∀ (i : Invocation) n, i.arity = .ok n ↔ ∃ d : MethodDescriptor, d.Delimited ∧
      d.text = i.method.signature.descriptor ∧
      n = d.params.length + if i.kind.hasReceiver then 1 else 0) ∧
    ∀ s n, (parse s).map paramSlots = .ok n ↔ ∃ d : MethodDescriptor, d.Delimited ∧
      d.text = s ∧ n = (d.params.map fun t => if t.isWide then 2 else 1).sum := by
  refine ⟨fun s params result => ?_, injOn_of_parse parse_ok_iff, fun i n => ?_, fun s n => ?_⟩
  · rw [parse_ok_iff, delimited_iff, and_assoc, text_eq, eq_comm (b := s)]
  · rw [Invocation.arity, except_bind_ok_iff]
    simp only [Signature.methodDescriptor, parse_ok_iff, and_assoc, pure, Except.pure,
      Except.ok.injEq, eq_comm (b := n)]
  · have hmap : (parse s).map paramSlots = .ok n ↔ ∃ d, parse s = .ok d ∧ n = d.paramSlots := by
      cases parse s <;> simp [Except.map, eq_comm]
    simp only [hmap, parse_ok_iff, and_assoc, paramSlots_eq_sum]

/-- Parentheses and primitive letters may stand in class names. -/
example : parse "(L(V)I;[J)LV;" =
    .ok ⟨[.reference "(V)I", .array .long], some (.reference "V")⟩ := by
  cbv

end MethodDescriptor

end SymbolicBytecode
