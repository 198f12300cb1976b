import Mathlib
import SymbolicBytecode.Proofs.ModifiedUtf8
import SymbolicBytecode.Proofs.Readers

/-!
# The layout of class files

A `ClassLayout` says what is in a class file: the constants in their order, and for each name the
index that leads to it. `ClassLayout.encode` writes it down as a big-endian byte string, and
`ClassLayout.described` is the class that it describes. This class is what the reader finds in these
bytes.
-/
namespace SymbolicBytecode

open Reader (Reads)

/-- A word is its high half and its low half put together. -/
theorem join_halves {n k : Nat} (h : n < 2 ^ (k + k)) :
    (n >>> k % 2 ^ k) <<< k % 2 ^ (k + k) ||| n % 2 ^ k = n := by
  have hpos : 0 < 2 ^ k := Nat.two_pow_pos k
  have hhigh : n / 2 ^ k < 2 ^ k := Nat.div_lt_of_lt_mul (by rwa [← Nat.pow_add])
  have hfits : n / 2 ^ k * 2 ^ k < 2 ^ (k + k) := (Nat.div_mul_le_self n _).trans_lt h
  rw [Nat.shiftRight_eq_div_pow, Nat.mod_eq_of_lt hhigh,
    Text.shiftLeft_mod_or (Nat.mod_lt n hpos) hfits]
  exact Nat.div_add_mod' n (2 ^ k)

namespace Layout

variable {α β γ : Type}

def u2 (n : UInt16) : Bytes := [(n >>> 8).toUInt8, n.toUInt8]

def u4 (n : UInt32) : Bytes := u2 (n >>> 16).toUInt16 ++ u2 n.toUInt16

def u8 (n : UInt64) : Bytes := u4 (n >>> 32).toUInt32 ++ u4 n.toUInt32

theorem u2_reads (n : UInt16) : Reads Reader.u2 (u2 n) n := by
  have hword : (n >>> 8).toUInt8.toUInt16 <<< 8 ||| n.toUInt8.toUInt16 = n := by
    rw [← UInt16.toNat_inj, UInt16.toNat_or, UInt16.toNat_shiftLeft, UInt8.toNat_toUInt16,
      UInt8.toNat_toUInt16, UInt16.toNat_toUInt8, UInt16.toNat_toUInt8, UInt16.toNat_shiftRight]
    exact join_halves (k := 8) n.toNat_lt
  have hreads := Reader.u2_reads (n >>> 8).toUInt8 n.toUInt8
  rwa [hword] at hreads

theorem u4_reads (n : UInt32) : Reads Reader.u4 (u4 n) n := by
  have hword : (n >>> 16).toUInt16.toUInt32 <<< 16 ||| n.toUInt16.toUInt32 = n := by
    rw [← UInt32.toNat_inj, UInt32.toNat_or, UInt32.toNat_shiftLeft, UInt16.toNat_toUInt32,
      UInt16.toNat_toUInt32, UInt32.toNat_toUInt16, UInt32.toNat_toUInt16, UInt32.toNat_shiftRight]
    exact join_halves (k := 16) n.toNat_lt
  have hreads : Reads Reader.u4 (u4 n)
      ((n >>> 16).toUInt16.toUInt32 <<< 16 ||| n.toUInt16.toUInt32) :=
    (u2_reads _).bind ((u2_reads _).bind_nil (.pure _))
  rwa [hword] at hreads

theorem u8_reads (n : UInt64) : Reads Reader.u8 (u8 n) n := by
  have hword : (n >>> 32).toUInt32.toUInt64 <<< 32 ||| n.toUInt32.toUInt64 = n := by
    rw [← UInt64.toNat_inj, UInt64.toNat_or, UInt64.toNat_shiftLeft, UInt32.toNat_toUInt64,
      UInt32.toNat_toUInt64, UInt64.toNat_toUInt32, UInt64.toNat_toUInt32, UInt64.toNat_shiftRight]
    exact join_halves (k := 32) n.toNat_lt
  have hreads : Reads Reader.u8 (u8 n)
      ((n >>> 32).toUInt32.toUInt64 <<< 32 ||| n.toUInt32.toUInt64) :=
    (u4_reads _).bind ((u4_reads _).bind_nil (.pure _))
  rwa [hword] at hreads

/-- Items with their number in front. -/
def counted (write : α → Bytes) (items : List α) : Bytes :=
  u2 items.length.toUInt16 ++ items.flatMap write

/-- There are so few items that their number can be written, and each of them is well formed. -/
def Counts (items : List α) (wellFormed : α → Prop) : Prop :=
  items.length < 0x10000 ∧ ∀ a ∈ items, wellFormed a

theorem repeated_reads {item : Reader β} {write : α → Bytes} {value : α → β} {items : List α}
    (hitem : ∀ a ∈ items, Reads item (write a) (value a)) :
    Reads (Reader.repeated item items.length) (items.flatMap write) (items.map value) := by
  induction items with
  | nil => exact .pure []
  | cons a rest ih =>
    have hfirst := hitem a List.mem_cons_self
    have hrest := ih fun b hb => hitem b (List.mem_cons_of_mem a hb)
    rw [List.flatMap_cons]
    exact hfirst.bind (hrest.bind_nil (.pure _))

theorem counted_reads {item : Reader β} {write : α → Bytes} {value : α → β} {items : List α}
    (hlength : items.length < 0x10000) (hitem : ∀ a ∈ items, Reads item (write a) (value a)) :
    Reads (Reader.counted item) (counted write items) (items.map value) := by
  refine (u2_reads _).bind ?_
  rw [Text.toNat_toUInt16 hlength]
  exact repeated_reads hitem

/-- Bytes with their number in front. -/
def sized (info : Bytes) : Bytes := u4 info.length.toUInt32 ++ info

theorem sized_reads {info : Bytes} {f : Bytes → Reader β} {taken : Bytes} {b : β}
    (hlength : info.length < 0x100000000) (hf : Reads (f info) taken b) :
    Reads (do let length ← Reader.u4; let found ← Reader.bytes length.toNat; f found)
      (sized info ++ taken) b := by
  have hcount : info.length.toUInt32.toNat = info.length := by
    rw [Nat.toUInt32_eq, UInt32.toNat_ofNat']
    exact Nat.mod_eq_of_lt hlength
  have hbytes := Reader.bytes_reads info
  rw [sized, List.append_assoc]
  refine (u4_reads _).bind ?_
  rw [hcount]
  exact hbytes.bind hf

/-! ## Constants -/

/-- The tag of a constant and what follows it. An unusable slot is not written. -/
def constant : Constant → Bytes
  | .utf8 value =>
    let encoded := Text.ModifiedUtf8.encode value
    1 :: (u2 encoded.length.toUInt16 ++ encoded)
  | .integer value => 3 :: u4 value.toUInt32
  | .float value => 4 :: u4 value.bits
  | .long value => 5 :: u8 value.toUInt64
  | .double value => 6 :: u8 value.bits
  | .classRef name => 7 :: u2 name
  | .string text => 8 :: u2 text
  | .fieldRef owner nameAndType => 9 :: (u2 owner ++ u2 nameAndType)
  | .methodRef owner nameAndType => 10 :: (u2 owner ++ u2 nameAndType)
  | .interfaceMethodRef owner nameAndType => 11 :: (u2 owner ++ u2 nameAndType)
  | .nameAndType name descriptor => 12 :: (u2 name ++ u2 descriptor)
  | .methodHandle kind reference => 15 :: kind :: u2 reference
  | .methodType descriptor => 16 :: u2 descriptor
  | .dynamic bootstrap nameAndType => 17 :: (u2 bootstrap ++ u2 nameAndType)
  | .invokeDynamic bootstrap nameAndType => 18 :: (u2 bootstrap ++ u2 nameAndType)
  | .unusable => []

/-- Texts can be too long to be written. -/
def Writable : Constant → Prop
  | .utf8 value => (Text.ModifiedUtf8.encode value).length < 0x10000
  | .unusable => False
  | _ => True

theorem text_reads {value : String}
    (hlength : (Text.ModifiedUtf8.encode value).length < 0x10000) :
    Reads Reader.text (u2 (Text.ModifiedUtf8.encode value).length.toUInt16 ++
      Text.ModifiedUtf8.encode value) value := by
  have hbytes := Reader.bytes_reads (Text.ModifiedUtf8.encode value)
  refine (u2_reads _).bind ?_
  rw [Text.toNat_toUInt16 hlength]
  refine hbytes.bind_nil ?_
  rw [Text.ModifiedUtf8.decode_encode]
  exact .pure value

theorem constant_reads {c : Constant} (hc : Writable c) : Reads Reader.constant (constant c) c := by
  have htag {tag : UInt8} {taken : Bytes} (h : Reads (Reader.constantOf tag) taken c) :
      Reads Reader.constant (tag :: taken) c := (Reader.u1_reads tag).bind h
  have hpair (g : UInt16 → UInt16 → Constant) (a b : UInt16) :
      Reads (do return g (← Reader.u2) (← Reader.u2)) (u2 a ++ u2 b) (g a b) :=
    (u2_reads a).bind ((u2_reads b).bind_nil (.pure _))
  have hsingle (g : UInt16 → Constant) (a : UInt16) :
      Reads (do return g (← Reader.u2)) (u2 a) (g a) := (u2_reads a).bind_nil (.pure _)
  cases c with
  | utf8 value => exact htag ((text_reads hc).bind_nil (.pure _))
  | integer value => exact htag ((u4_reads value.toUInt32).bind_nil (.pure _))
  | float value => exact htag ((u4_reads value.bits).bind_nil (.pure _))
  | long value => exact htag ((u8_reads value.toUInt64).bind_nil (.pure _))
  | double value => exact htag ((u8_reads value.bits).bind_nil (.pure _))
  | classRef name => exact htag (hsingle _ name)
  | string text => exact htag (hsingle _ text)
  | fieldRef owner nameAndType => exact htag (hpair _ owner nameAndType)
  | methodRef owner nameAndType => exact htag (hpair _ owner nameAndType)
  | interfaceMethodRef owner nameAndType => exact htag (hpair _ owner nameAndType)
  | nameAndType name descriptor => exact htag (hpair _ name descriptor)
  | methodHandle kind reference =>
    exact htag ((Reader.u1_reads kind).bind ((u2_reads reference).bind_nil (.pure _)))
  | methodType descriptor => exact htag (hsingle _ descriptor)
  | dynamic bootstrap nameAndType => exact htag (hpair _ bootstrap nameAndType)
  | invokeDynamic bootstrap nameAndType => exact htag (hpair _ bootstrap nameAndType)
  | unusable => exact hc.elim

/-- The slots that a constant takes. -/
def slots (c : Constant) : List Constant := if c.isWide then [c, .unusable] else [c]

theorem push_eq (pool : ConstantPool) (c : Constant) :
    pool.push c = ⟨pool.slots ++ (slots c).toArray⟩ := by
  unfold ConstantPool.push slots
  split
  · rw [Array.push_eq_append, Array.push_eq_append, Array.append_assoc]
    rfl
  · rw [Array.push_eq_append]

theorem constants_reads {cs : List Constant} (hcs : ∀ c ∈ cs, Writable c) (pool : ConstantPool) :
    Reads (Reader.constants (pool.size + (cs.flatMap slots).length + 1) pool)
      (cs.flatMap constant) ⟨pool.slots ++ (cs.flatMap slots).toArray⟩ := by
  induction cs generalizing pool with
  | nil =>
    rw [Reader.constants, if_neg (by simp)]
    simpa using Reads.pure pool
  | cons c rest ih =>
    have hc := constant_reads (hcs c List.mem_cons_self)
    have hrest := ih (fun d hd => hcs d (List.mem_cons_of_mem c hd)) (pool.push c)
    have hslots : 0 < (slots c).length := by
      unfold slots
      split <;> simp
    have hsize : (pool.push c).size = pool.size + (slots c).length := by
      simp [push_eq, ConstantPool.size]
    have hcount : (pool.push c).size + (rest.flatMap slots).length + 1 =
        pool.size + ((c :: rest).flatMap slots).length + 1 := by
      rw [hsize, List.flatMap_cons, List.length_append]
      omega
    have hpool : (pool.push c).slots ++ (rest.flatMap slots).toArray =
        pool.slots ++ ((c :: rest).flatMap slots).toArray := by
      rw [push_eq, List.flatMap_cons]
      simp
    rw [hcount, hpool] at hrest
    rw [Reader.constants, if_pos (by rw [List.flatMap_cons, List.length_append]; omega),
      List.flatMap_cons]
    exact hc.bind hrest

/-! ## Names -/

/-- An index and the text that it leads to. -/
structure Name where
  index : PoolIndex
  text : String

namespace Name

/-- The index denotes a text. -/
def IsText (pool : ConstantPool) (n : Name) : Prop := pool.get? n.index = some (.utf8 n.text)

/-- The index denotes a class of this name. -/
def IsClass (pool : ConstantPool) (n : Name) : Prop :=
  ∃ i, pool.get? n.index = some (.classRef i) ∧ pool.get? i = some (.utf8 n.text)

variable {pool : ConstantPool} {n : Name}

theorem IsText.utf8_eq (h : n.IsText pool) : pool.utf8 n.index = .ok n.text := by
  rw [ConstantPool.utf8, show pool.get? n.index = _ from h]

theorem IsClass.className_eq (h : n.IsClass pool) : pool.className n.index = .ok n.text := by
  obtain ⟨i, hclass, htext⟩ := h
  have hutf8 : pool.utf8 i = .ok n.text := IsText.utf8_eq (n := ⟨i, n.text⟩) htext
  rw [ConstantPool.className, hclass]
  dsimp only
  rw [hutf8]
  rfl

theorem IsClass.index_ne_zero (h : n.IsClass pool) : n.index ≠ 0 := by
  obtain ⟨i, hclass, -⟩ := h
  intro hzero
  rw [ConstantPool.get?, if_pos hzero] at hclass
  cases hclass

end Name

theorem follow_reads {found : Except InvalidIndex α} {a : α} (h : found = .ok a) :
    Reads (Reader.follow found) [] a := by
  rw [h]
  exact .pure a

theorem followAll_reads {pool : ConstantPool} {names : List Name}
    (hnames : ∀ n ∈ names, n.IsClass pool) :
    Reads (Reader.followAll pool (names.map Name.index)) [] (names.map Name.text) := by
  induction names with
  | nil => exact .pure []
  | cons n rest ih =>
    have hn := follow_reads (hnames n List.mem_cons_self).className_eq
    have hrest := ih fun m hm => hnames m (List.mem_cons_of_mem n hm)
    exact hn.nil_bind (hrest.nil_bind (.pure _))

/-! ## Attributes -/

/-- An attribute, whatever is in it. -/
structure Attribute where
  name : Name
  info : Bytes

namespace Attribute

def encode (a : Attribute) : Bytes := u2 a.name.index ++ sized a.info

structure WellFormed (pool : ConstantPool) (a : Attribute) : Prop where
  name : a.name.IsText pool
  length : a.info.length < 0x100000000

variable {pool : ConstantPool}

theorem WellFormed.reads {a : Attribute} (ha : a.WellFormed pool) :
    Reads (Reader.rawAttribute pool) a.encode (a.name.text, a.info) := by
  have hname := follow_reads ha.name.utf8_eq
  refine (u2_reads _).bind ?_
  rw [← List.append_nil (sized a.info)]
  exact sized_reads ha.length (hname.nil_bind (.pure _))

theorem counted_reads {attributes : List Attribute} (h : Counts attributes (WellFormed pool)) :
    Reads (Reader.rawAttributes pool) (counted encode attributes)
      (attributes.map fun a => (a.name.text, a.info)) :=
  Layout.counted_reads h.1 fun a ha => (h.2 a ha).reads

end Attribute

/-- An attribute of a field or a method: one of the kind that is read, with a value and perhaps more
bytes after it, or another one. -/
inductive MemberAttribute (α : Type) where
  | known (index : PoolIndex) (value : α) (unread : Bytes)
  | other (a : Attribute)

namespace MemberAttribute

variable {pool : ConstantPool} {wanted : String} {write : α → Bytes}

def raw (wanted : String) (write : α → Bytes) : MemberAttribute α → Attribute
  | known index value unread => ⟨⟨index, wanted⟩, write value ++ unread⟩
  | other a => a

def value? : MemberAttribute α → Option α
  | known _ value _ => some value
  | other _ => none

def WellFormed (pool : ConstantPool) (wanted : String) (write : α → Bytes) (valid : α → Prop) :
    MemberAttribute α → Prop
  | known index value unread =>
    (raw wanted write (known index value unread)).WellFormed pool ∧ valid value
  | other a => a.WellFormed pool ∧ a.name.text ≠ wanted

theorem WellFormed.raw {valid : α → Prop} {a : MemberAttribute α}
    (ha : a.WellFormed pool wanted write valid) : (a.raw wanted write).WellFormed pool := by
  cases a with
  | known => exact ha.1
  | other => exact ha.1

/-- Of the attributes that are read, the last one counts. -/
theorem lastNamed_eq {item : Reader β} {valid : α → Prop} {read : α → β}
    {attributes : List (MemberAttribute α)}
    (hitem : ∀ v, valid v → Reads item (write v) (read v))
    (h : ∀ a ∈ attributes, a.WellFormed pool wanted write valid) :
    Reader.lastNamed wanted item
        ((attributes.map (raw wanted write)).map fun a => (a.name.text, a.info)) =
      .ok ((attributes.filterMap value?).getLast?.map read) := by
  induction attributes with
  | nil => rfl
  | cons a rest ih =>
    have ha := h a List.mem_cons_self
    have hrest := ih fun b hb => h b (List.mem_cons_of_mem a hb)
    cases a with
    | known index value unread =>
      have hvalue := (hitem value ha.2).followed unread
      simp only [List.map_cons, MemberAttribute.raw, Reader.lastNamed, if_true, hvalue, hrest, bind,
        Except.bind, pure, Except.pure, List.filterMap_cons, value?, List.getLast?_cons]
      cases (rest.filterMap value?).getLast? <;> rfl
    | other a =>
      simp only [List.map_cons, MemberAttribute.raw, Reader.lastNamed, if_neg ha.2]
      exact hrest

end MemberAttribute

/-- A field or a method. -/
structure Member (α : Type) where
  accessFlags : AccessFlags
  name : Name
  descriptor : Name
  attributes : List (MemberAttribute α)

namespace Member

variable {pool : ConstantPool} {wanted : String} {write : α → Bytes}

def encode (wanted : String) (write : α → Bytes) (m : Member α) : Bytes :=
  u2 m.accessFlags ++ u2 m.name.index ++ u2 m.descriptor.index ++
    counted Attribute.encode (m.attributes.map (·.raw wanted write))

/-- The value that counts, if there is one. -/
def last? (m : Member α) : Option α := (m.attributes.filterMap MemberAttribute.value?).getLast?

structure WellFormed (pool : ConstantPool) (wanted : String) (write : α → Bytes)
    (valid : α → Prop) (m : Member α) : Prop where
  name : m.name.IsText pool
  descriptor : m.descriptor.IsText pool
  attributes : Counts m.attributes (·.WellFormed pool wanted write valid)

theorem WellFormed.reads {item : Reader β} {valid : α → Prop} {read : α → β}
    {make : AccessFlags → String → String → Option β → γ} {m : Member α}
    (hm : m.WellFormed pool wanted write valid)
    (hitem : ∀ v, valid v → Reads item (write v) (read v)) :
    Reads (Reader.member pool wanted item make) (m.encode wanted write)
      (make m.accessFlags m.name.text m.descriptor.text (m.last?.map read)) := by
  obtain ⟨hcount, hattributes⟩ := hm.attributes
  have hraw : Counts (m.attributes.map (·.raw wanted write)) (Attribute.WellFormed pool) := by
    refine ⟨by simpa using hcount, fun a ha => ?_⟩
    obtain ⟨b, hb, rfl⟩ := List.mem_map.1 ha
    exact (hattributes b hb).raw
  have hlast := MemberAttribute.lastNamed_eq hitem hattributes
  simp only [encode, List.append_assoc]
  refine (u2_reads _).bind ((u2_reads _).bind ((u2_reads _).bind ?_))
  refine (Attribute.counted_reads hraw).bind_nil ?_
  rw [hlast]
  refine (Reads.pure _).nil_bind ((follow_reads hm.name.utf8_eq).nil_bind ?_)
  exact (follow_reads hm.descriptor.utf8_eq).nil_bind (.pure _)

end Member

/-! ## Code -/

def handler (h : Handler) : Bytes := u2 h.startPc ++ u2 h.endPc ++ u2 h.handlerPc ++ u2 h.catchType

theorem handler_reads (h : Handler) : Reads Reader.handler (handler h) h := by
  simp only [handler, List.append_assoc]
  exact (u2_reads _).bind ((u2_reads _).bind ((u2_reads _).bind ((u2_reads _).bind_nil (.pure _))))

/-- The code of a method, with its line numbers and the like. -/
structure Body where
  code : Code
  attributes : List Attribute

namespace Body

def encode (b : Body) : Bytes :=
  u2 b.code.maxStack ++ u2 b.code.maxLocals ++ sized b.code.bytes ++
    counted handler b.code.handlers ++ counted Attribute.encode b.attributes

structure WellFormed (pool : ConstantPool) (b : Body) : Prop where
  length : b.code.bytes.length < 0x100000000
  handlers : b.code.handlers.length < 0x10000
  attributes : Counts b.attributes (Attribute.WellFormed pool)

theorem WellFormed.reads {pool : ConstantPool} {b : Body} (hb : b.WellFormed pool) :
    Reads (Reader.code pool) b.encode b.code := by
  have hhandlers : Reads (Reader.counted Reader.handler) (counted handler b.code.handlers)
      b.code.handlers := by
    simpa using counted_reads hb.handlers fun h _ => handler_reads h
  have hattributes := Attribute.counted_reads hb.attributes
  simp only [encode, List.append_assoc]
  refine (u2_reads _).bind ((u2_reads _).bind (sized_reads hb.length ?_))
  exact hhandlers.bind (hattributes.bind_nil (.pure _))

end Body

end Layout

open Layout

/-- What is in a class file. -/
structure ClassLayout where
  minorVersion : UInt16
  majorVersion : UInt16
  constants : List Constant
  accessFlags : AccessFlags
  name : Name
  superclass : Option Name
  interfaces : List Name
  fields : List (Member PoolIndex)
  methods : List (Member Body)
  attributes : List Attribute

namespace ClassLayout

variable {l : ClassLayout}

/-- The constants in their slots, with an unusable slot after each wide one. -/
def slots (l : ClassLayout) : List Constant := l.constants.flatMap Layout.slots

def pool (l : ClassLayout) : ConstantPool := ⟨l.slots.toArray⟩

def contents (l : ClassLayout) : Bytes :=
  u2 l.minorVersion ++ u2 l.majorVersion ++ u2 (l.slots.length + 1).toUInt16 ++
    l.constants.flatMap constant ++ u2 l.accessFlags ++ u2 l.name.index ++
    u2 (l.superclass.elim 0 Name.index) ++ counted (u2 ·.index) l.interfaces ++
    counted (Member.encode "ConstantValue" u2) l.fields ++
    counted (Member.encode "Code" Body.encode) l.methods ++
    counted Attribute.encode l.attributes

/-- The class file with this layout. -/
def encode (l : ClassLayout) : Bytes := u4 0xcafebabe ++ l.contents

/-- The class that the layout describes. -/
def described (l : ClassLayout) : ClassFile where
  minorVersion := l.minorVersion
  majorVersion := l.majorVersion
  pool := l.pool
  accessFlags := l.accessFlags
  name := l.name.text
  superName := l.superclass.map Name.text
  interfaces := l.interfaces.map Name.text
  fields := l.fields.map fun m => ⟨m.accessFlags, m.name.text, m.descriptor.text, m.last?⟩
  methods := l.methods.map fun m =>
    ⟨m.accessFlags, m.name.text, m.descriptor.text, m.last?.map Body.code⟩

/-- Indices denote what they are used for, and numbers are small enough to be written. -/
structure WellFormed (l : ClassLayout) : Prop where
  constants : ∀ c ∈ l.constants, Writable c
  slots : l.slots.length + 1 < 0x10000
  name : l.name.IsClass l.pool
  superclass : ∀ n, l.superclass = some n → n.IsClass l.pool
  interfaces : Counts l.interfaces (Name.IsClass l.pool)
  fields : Counts l.fields (Member.WellFormed l.pool "ConstantValue" u2 fun _ => True)
  methods : Counts l.methods (Member.WellFormed l.pool "Code" Body.encode (Body.WellFormed l.pool))
  attributes : Counts l.attributes (Attribute.WellFormed l.pool)

namespace WellFormed

theorem constantPool_reads (h : l.WellFormed) :
    Reads Reader.constantPool
      (u2 (l.slots.length + 1).toUInt16 ++ l.constants.flatMap constant) l.pool := by
  have hconstants : Reads
      (Reader.constants (ConstantPool.empty.size + l.slots.length + 1) .empty)
      (l.constants.flatMap constant) ⟨ConstantPool.empty.slots ++ l.slots.toArray⟩ :=
    constants_reads h.constants .empty
  have hcount : ConstantPool.empty.size + l.slots.length + 1 = l.slots.length + 1 := by
    simp [ConstantPool.empty, ConstantPool.size]
  have hpool : ConstantPool.mk (ConstantPool.empty.slots ++ l.slots.toArray) = l.pool := by
    simp [ConstantPool.empty, pool]
  rw [hcount, hpool] at hconstants
  refine (u2_reads _).bind ?_
  rwa [Text.toNat_toUInt16 h.slots]

theorem fields_reads (h : l.WellFormed) :
    Reads (Reader.counted (Reader.field l.pool))
      (counted (Member.encode "ConstantValue" u2) l.fields) l.described.fields := by
  refine counted_reads h.fields.1 fun m hm => ?_
  have hreads : Reads (Reader.field l.pool) (m.encode "ConstantValue" u2)
      ⟨m.accessFlags, m.name.text, m.descriptor.text, m.last?.map id⟩ :=
    (h.fields.2 m hm).reads fun i _ => u2_reads i
  rwa [Option.map_id, id] at hreads

theorem methods_reads (h : l.WellFormed) :
    Reads (Reader.counted (Reader.method l.pool))
      (counted (Member.encode "Code" Body.encode) l.methods) l.described.methods :=
  counted_reads h.methods.1 fun m hm => (h.methods.2 m hm).reads fun _ hb => hb.reads

/-- The superclass is written as zero if there is none. -/
theorem superclass_reads (h : l.WellFormed) {f : Option String → Reader ClassFile} {c : ClassFile}
    (hf : Reads (f l.described.superName) [] c) :
    Reads (if l.superclass.elim 0 Name.index = 0 then Pure.pure none >>= f
      else some <$> Reader.follow (l.pool.className (l.superclass.elim 0 Name.index)) >>= f)
      [] c := by
  replace hf : Reads (f (l.superclass.map Name.text)) [] c := hf
  cases hsuper : l.superclass with
  | none =>
    rw [hsuper] at hf
    rw [Option.elim_none, if_pos rfl]
    exact (Reads.pure none).nil_bind hf
  | some n =>
    have hn := h.superclass n hsuper
    rw [hsuper] at hf
    rw [Option.elim_some, if_neg hn.index_ne_zero]
    exact ((follow_reads hn.className_eq).map some).nil_bind hf

theorem contents_reads (h : l.WellFormed) : Reads Reader.contents l.contents l.described := by
  have hinterfaces : Reads (Reader.counted Reader.u2) (counted (u2 ·.index) l.interfaces)
      (l.interfaces.map Name.index) := counted_reads h.interfaces.1 fun n _ => u2_reads n.index
  have hpool := h.constantPool_reads
  have hattributes := Attribute.counted_reads h.attributes
  simp only [contents, List.append_assoc]
  refine (u2_reads _).bind ((u2_reads _).bind ?_)
  rw [← List.append_assoc]
  refine hpool.bind ((u2_reads _).bind ((u2_reads _).bind ((u2_reads _).bind ?_)))
  refine hinterfaces.bind (h.fields_reads.bind (h.methods_reads.bind (hattributes.bind_nil ?_)))
  refine (follow_reads h.name.className_eq).nil_bind (h.superclass_reads ?_)
  exact (followAll_reads h.interfaces.2).nil_bind (.pure _)

end WellFormed

/-- **Class files are read as they are laid out.** The bytes of a well-formed layout are read as the
class that it describes: its constants in their slots, the names behind all indices, of each field
the last constant value and of each method the last code. Nothing else in the attributes matters. -/
theorem parse_encode (h : l.WellFormed) : ClassFile.parse l.encode = .ok l.described := by
  have hmagic : l.encode = 0xca :: 0xfe :: 0xba :: 0xbe :: l.contents := rfl
  have hcontents := h.contents_reads.followed []
  rw [List.append_nil] at hcontents
  rw [ClassFile.parse, hmagic, Reader.classFile_magic, hcontents]

/-- A class with a wide constant, a field that has two constant values and a method with code. -/
def sample : ClassLayout where
  minorVersion := 0
  majorVersion := 52
  constants := [.utf8 "Foo", .classRef 1, .utf8 "java/lang/Object", .classRef 3, .long 7,
    .utf8 "ConstantValue", .utf8 "Code", .utf8 "x", .utf8 "J", .utf8 "run", .utf8 "()V"]
  accessFlags := 0x0021
  name := ⟨2, "Foo"⟩
  superclass := some ⟨4, "java/lang/Object"⟩
  interfaces := []
  fields := [⟨0x0019, ⟨9, "x"⟩, ⟨10, "J"⟩,
    [.known 7 1 [], .other ⟨⟨8, "Code"⟩, [0]⟩, .known 7 5 [0]]⟩]
  methods := [⟨0x0001, ⟨11, "run"⟩, ⟨12, "()V"⟩,
    [.known 8 ⟨⟨1, 1, [0xb1], [⟨0, 1, 0, 4⟩]⟩, []⟩ []]⟩]
  attributes := [⟨⟨9, "x"⟩, [0, 1, 2]⟩]

theorem parse_sample :
    ∃ c, ClassFile.parse sample.encode = .ok c ∧ c.name = "Foo" ∧
      c.superName = some "java/lang/Object" ∧ c.pool.get? 6 = some .unusable ∧
      c.fields = [⟨0x0019, "x", "J", some 5⟩] ∧
      c.methods = [⟨0x0001, "run", "()V", some ⟨1, 1, [0xb1], [⟨0, 1, 0, 4⟩]⟩⟩] := by
  have htexts : ∀ c ∈ sample.constants, Writable c := by
    simp only [sample, List.forall_mem_cons, List.not_mem_nil, false_imp_iff, implies_true,
      Writable, true_and, and_true]
    decide +kernel
  have hwellFormed : sample.WellFormed := {
    constants := htexts
    slots := by decide
    name := ⟨1, by decide, by decide⟩
    superclass := fun n hn => by
      cases hn
      exact ⟨3, by decide, by decide⟩
    interfaces := ⟨by decide, by simp [sample]⟩
    fields := ⟨by decide, List.forall_mem_singleton.2 {
      name := rfl
      descriptor := rfl
      attributes := ⟨by decide, List.forall_mem_cons.2 ⟨⟨⟨rfl, by decide⟩, trivial⟩,
        List.forall_mem_cons.2 ⟨⟨⟨rfl, by decide⟩, by decide⟩,
          List.forall_mem_singleton.2 ⟨⟨rfl, by decide⟩, trivial⟩⟩⟩⟩ }⟩
    methods := ⟨by decide, List.forall_mem_singleton.2 {
      name := rfl
      descriptor := rfl
      attributes := ⟨by decide, List.forall_mem_singleton.2
        ⟨⟨rfl, by decide⟩, by decide, by decide, by decide, by simp⟩⟩ }⟩
    attributes := ⟨by decide, List.forall_mem_singleton.2 ⟨rfl, by decide⟩⟩ }
  exact ⟨_, parse_encode hwellFormed, rfl, rfl, rfl, rfl, rfl⟩

end ClassLayout

end SymbolicBytecode
