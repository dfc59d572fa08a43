import Mathlib.Data.List.Forall2
import StakeKeeper.Proofs.Wire.Scanning
import StakeKeeper.Wire.Scalars

/-!
Codecs without loss. A codec is `Faithful` on the values with a property when these have a written
form, are read from its text, and are the only values that are read from any. Main statements:
`Codec.Faithful.read_write` and `Codec.Faithful.normalize` say this of whole texts;
`Codec.list_faithful`, `Fields.codec_faithful`, `Codec.choice_faithful` and their companions carry
it from parts to wholes.
-/
namespace StakeKeeper.Wire
set_option autoImplicit false

/-- Whether the values with a property, and no others, are written and read. -/
structure Codec.Faithful {α : Type} (c : Codec α) (p : α → Prop) : Prop where
  encodes : ∀ a, p a → ∃ j, c.encode a = some j
  lawful : c.Lawful
  scans : ∀ a j, c.encode a = some j → c.scan.Reads j
  decodes : ∀ j a, c.decode j = some a → p a
  absent : ∀ a, c.absent = some a → p a

def Anything {α : Type} (_ : α) : Prop := True

section
variable {α β : Type} {c : Codec α} {p : α → Prop}

theorem Codec.Faithful.congr {q : α → Prop} (h : c.Faithful p) (hpq : ∀ a, p a ↔ q a) :
    c.Faithful q where
  encodes a ha := h.encodes a ((hpq a).2 ha)
  lawful := h.lawful
  scans := h.scans
  decodes j a hj := (hpq a).1 (h.decodes j a hj)
  absent a ha := (hpq a).1 (h.absent a ha)

/-! ## Whole texts -/

theorem Codec.Faithful.read_write (h : c.Faithful p) {a : α} (ha : p a) :
    ∃ text, c.write? a = some text ∧ c.read? text = some a := by
  obtain ⟨j, hj⟩ := h.encodes a ha
  refine ⟨j.write, by rw [write?, hj, Option.map_some], ?_⟩
  rw [read?, (h.scans a j hj).whole]
  exact h.lawful a j hj

theorem Codec.Faithful.property_of_read (h : c.Faithful p) {text : String} {a : α}
    (ha : c.read? text = some a) : p a := by
  obtain ⟨j, _, hj⟩ := Option.bind_eq_some_iff.1 ha
  exact h.decodes j a hj

/-- A text that is accepted is written again as a text that stays as it is. -/
theorem Codec.Faithful.normalize (h : c.Faithful p) {text : String} {a : α}
    (ha : c.read? text = some a) :
    ∃ written, c.normalize? text = some written ∧ c.normalize? written = some written := by
  obtain ⟨written, hwrite, hread⟩ := h.read_write (h.property_of_read ha)
  refine ⟨written, ?_, ?_⟩
  · rw [normalize?, ha]
    exact hwrite
  · rw [normalize?, hread]
    exact hwrite

/-! ## Parts and wholes -/

theorem Codec.via_faithful {q : β → Prop} {pack : α → Option β} {unpack : β → Option α}
    (hc : c.Faithful p) (hlawful : (c.via pack unpack).Lawful)
    (hencodes : ∀ b, q b → ∃ a, unpack b = some a ∧ p a)
    (hdecodes : ∀ a b, p a → pack a = some b → q b) : (c.via pack unpack).Faithful q where
  encodes b hb := by
    obtain ⟨a, ha, hp⟩ := hencodes b hb
    obtain ⟨j, hj⟩ := hc.encodes a hp
    exact ⟨j, Option.bind_eq_some_iff.2 ⟨a, ha, hj⟩⟩
  lawful := hlawful
  scans b j hj := by
    obtain ⟨a, _, hj⟩ := Option.bind_eq_some_iff.1 hj
    exact hc.scans a j hj
  decodes j b hb := by
    obtain ⟨a, ha, hb⟩ := Option.bind_eq_some_iff.1 hb
    exact hdecodes a b (hc.decodes j a ha) hb
  absent b hb := by cases hb

end

theorem exists_of_mem_mapM {α β : Type} {f : α → Option β} {items : List α} {values : List β}
    (h : items.mapM f = some values) {v : β} (hv : v ∈ values) : ∃ i ∈ items, f i = some v := by
  induction items generalizing values with
  | nil =>
    cases h
    cases hv
  | cons i items ih =>
    rw [List.mapM_cons] at h
    obtain ⟨w, hw, h⟩ := Option.bind_eq_some_iff.1 h
    obtain ⟨ws, hws, h⟩ := Option.bind_eq_some_iff.1 h
    cases h
    rcases List.mem_cons.1 hv with rfl | hv
    · exact ⟨i, List.mem_cons_self, hw⟩
    · obtain ⟨k, hk, hkv⟩ := ih hws hv
      exact ⟨k, List.mem_cons_of_mem i hk, hkv⟩

theorem exists_mapM {α β : Type} {f : α → Option β} {items : List α}
    (h : ∀ i ∈ items, ∃ v, f i = some v) : ∃ values, items.mapM f = some values := by
  induction items with
  | nil => exact ⟨[], rfl⟩
  | cons i items ih =>
    obtain ⟨v, hv⟩ := h i List.mem_cons_self
    obtain ⟨vs, hvs⟩ := ih fun k hk => h k (List.mem_cons_of_mem i hk)
    exact ⟨v :: vs, by rw [List.mapM_cons, hv, hvs]; rfl⟩

section
variable {α β : Type} {c : Codec α} {p : α → Prop}

theorem Codec.list_faithful (hc : c.Faithful p) : c.list.Faithful fun l => ∀ a ∈ l, p a where
  encodes l hl := by
    obtain ⟨es, hes⟩ := exists_mapM fun a ha => hc.encodes a (hl a ha)
    exact ⟨.array es, Option.map_eq_some_iff.2 ⟨es, hes, rfl⟩⟩
  lawful := list_lawful hc.lawful
  scans l j hj := by
    obtain ⟨es, hes, rfl⟩ := Option.map_eq_some_iff.1 hj
    refine scanParts_array fun e he _ => ?_
    obtain ⟨a, _, hae⟩ := exists_of_mem_mapM hes he
    exact hc.scans a e hae
  decodes j l hl a ha := by
    cases j with
    | array es =>
      obtain ⟨e, _, hea⟩ := exists_of_mem_mapM hl ha
      exact hc.decodes e a hea
    | _ => cases hl
  absent l hl := by cases hl

theorem Codec.option_faithful (hc : c.Faithful p) (hnull : ∀ a, c.encode a ≠ some .null)
    (hscan : c.scan.Reads .null) : c.option.Faithful fun o => ∀ a, o = some a → p a where
  encodes o ho := by
    cases o with
    | none => exact ⟨.null, rfl⟩
    | some a => exact hc.encodes a (ho a rfl)
  lawful := option_lawful hc.lawful hnull
  scans o j hj := by
    cases o with
    | none =>
      have hj : Json.null = j := Option.some.inj hj
      rw [← hj]
      exact hscan
    | some a => exact hc.scans a j hj
  decodes j o ho a ha := by
    subst ha
    cases j with
    | null => cases ho
    | _ =>
      obtain ⟨b, hb, hba⟩ := Option.map_eq_some_iff.1 ho
      cases hba
      exact hc.decodes _ _ hb
  absent o ho a ha := by
    cases ho
    cases ha

/-! ## Records -/

/-- Fields whose values with a property, and no others, are written and read. -/
structure Fields.Faithful (f : Fields α) (p : α → Prop) : Prop where
  encodes : ∀ v, p v → ∃ js, f.encode v = some js
  lawful : f.Lawful
  scans : ∀ v js, f.encode v = some js → List.Forall₂ Scanner.Reads f.scans js
  decodes : ∀ js v, f.decode js = some v → p v

theorem Fields.Faithful.nil : Fields.nil.Faithful Anything where
  encodes _ _ := ⟨[], rfl⟩
  lawful := Fields.nil_lawful
  scans v js h := by
    cases h
    exact .nil
  decodes _ _ _ := trivial

theorem Fields.Faithful.cons {name : String} {rest : Fields β} {q : β → Prop}
    (hc : c.Faithful p) (hr : rest.Faithful q) :
    (Fields.cons name c rest).Faithful fun v => p v.1 ∧ q v.2 where
  encodes v hv := by
    obtain ⟨j, hj⟩ := hc.encodes v.1 hv.1
    obtain ⟨js, hjs⟩ := hr.encodes v.2 hv.2
    exact ⟨j :: js, by simp [Fields.cons, hj, hjs]⟩
  lawful := Fields.cons_lawful hc.lawful hr.lawful
  scans v js h := by
    obtain ⟨j, hj, h⟩ := Option.bind_eq_some_iff.1 h
    obtain ⟨ks, hks, h⟩ := Option.bind_eq_some_iff.1 h
    cases h
    exact .cons (hc.scans v.1 j hj) (hr.scans v.2 ks hks)
  decodes js v h := by
    cases js with
    | nil => cases h
    | cons j js =>
      cases j with
      | none =>
        obtain ⟨a, ha, h⟩ := Option.bind_eq_some_iff.1 h
        obtain ⟨b, hb, h⟩ := Option.bind_eq_some_iff.1 h
        cases h
        exact ⟨hc.absent a ha, hr.decodes js b hb⟩
      | some j =>
        obtain ⟨a, ha, h⟩ := Option.bind_eq_some_iff.1 h
        obtain ⟨b, hb, h⟩ := Option.bind_eq_some_iff.1 h
        cases h
        exact ⟨hc.decodes j a ha, hr.decodes js b hb⟩

theorem lookup_scan {names : List String} {scans : List Scanner} {js : List Json}
    (hnames : names.Nodup) (hscans : List.Forall₂ Scanner.Reads scans js) {m : String × Json}
    (hm : m ∈ names.zip js) :
    ∃ scan, ((names.map some).zip scans).lookup (some m.1) = some scan ∧ scan.Reads m.2 := by
  induction hscans generalizing names with
  | nil => rw [List.zip_nil_right] at hm; cases hm
  | cons hread hscans ih =>
    rename_i scan j scans js
    cases names with
    | nil => cases hm
    | cons name names =>
      obtain ⟨hname, hnames⟩ := List.nodup_cons.1 hnames
      rw [List.zip_cons_cons, List.mem_cons] at hm
      rcases hm with rfl | hm
      · exact ⟨scan, by simp, hread⟩
      · obtain ⟨own, hown, hreads⟩ := ih hnames hm
        have hne : m.1 ≠ name := fun h => hname (h ▸ (List.of_mem_zip hm).1)
        have hbeq : ((some m.1 : Text) == some name) = false := by simp [hne]
        refine ⟨own, ?_, hreads⟩
        rw [List.map_cons, List.zip_cons_cons, List.lookup_cons, hbeq]
        exact hown

/-- A record is read back from what was written if each of its fields is, and no two of them share a
name. -/
theorem Fields.codec_faithful {f : Fields α} (hf : f.Faithful p) (hn : f.names.Nodup)
    (closed : Bool) : (f.codec closed).Faithful p where
  encodes v hv := by
    obtain ⟨js, hjs⟩ := hf.encodes v hv
    exact ⟨_, Option.map_eq_some_iff.2 ⟨js, hjs, rfl⟩⟩
  lawful := codec_lawful hf.lawful hn closed
  scans v j hj := by
    obtain ⟨js, hjs, rfl⟩ := Option.map_eq_some_iff.1 hj
    rw [List.zip_map_left]
    refine scanParts_object _ fun m hm => ?_
    obtain ⟨scan, hscan, hreads⟩ := lookup_scan hn (hf.scans v js hjs) hm
    rw [scanNamed, hscan]
    exact hreads
  decodes j v hv := by
    cases j with
    | array es => exact hf.decodes _ v hv
    | object ms =>
      simp only [codec] at hv
      split at hv
      · obtain ⟨js, _, hjs⟩ := Option.bind_eq_some_iff.1 hv
        exact hf.decodes js v hjs
      · cases hv
    | _ => cases hv
  absent v hv := by cases hv

theorem Codec.record_faithful {f : Fields α} {pack : α → β} {unpack : β → α}
    (hf : f.Faithful p) (hn : f.names.Nodup) (hpack : ∀ b, pack (unpack b) = b)
    (hunpack : ∀ a, unpack (pack a) = a) :
    (Codec.record f pack unpack).Faithful fun b => p (unpack b) :=
  via_faithful (f.codec_faithful hf hn false) (record_lawful hf.lawful hn hpack)
    (fun b hb => ⟨unpack b, rfl, hb⟩)
    (fun a b ha hb => by rw [← Option.some.inj hb, hunpack]; exact ha)

theorem Codec.record_ne_null {f : Fields α} {pack : α → β} {unpack : β → α} (b : β) :
    (Codec.record f pack unpack).encode b ≠ some .null := by
  intro h
  have h : ((f.encode (unpack b)).map fun js => Json.object ((f.names.map some).zip js)) =
      some .null := h
  obtain ⟨_, _, h⟩ := Option.map_eq_some_iff.1 h
  cases h

/-! ## Choices -/

structure Alternative.Faithful (v : Alternative α) : Prop where
  lawful : v.Lawful
  scans : ∀ a content, v.encode a = some (some content) → v.scan.Reads content

theorem Alternative.Faithful.unit [DecidableEq α] (name : String) (a : α) :
    (Alternative.unit name a).Faithful where
  lawful := Alternative.unit_lawful name a
  scans b content h := by
    simp [Alternative.unit] at h

/-- A choice is read back if each alternative is, their names differ, and one of them encodes every
value. -/
theorem Codec.choice_faithful {vs : List (Alternative α)} (hn : (vs.map (·.name)).Nodup)
    (hv : ∀ v ∈ vs, v.Faithful) (hall : ∀ a, ∃ v ∈ vs, (v.encode a).isSome) :
    (Codec.choice vs).Faithful Anything where
  encodes a _ := by
    obtain ⟨v, hmem, hsome⟩ := hall a
    obtain ⟨content, hcontent⟩ := Option.isSome_iff_exists.1 hsome
    exact Option.isSome_iff_exists.1 (List.findSome?_isSome_iff.2 ⟨v, hmem, by rw [hcontent]; rfl⟩)
  lawful := choice_lawful hn fun v hmem => (hv v hmem).lawful
  scans a j hj := by
    obtain ⟨v, hmem, hj⟩ := List.exists_of_findSome?_eq_some hj
    obtain ⟨content, hcontent, rfl⟩ := Option.map_eq_some_iff.1 hj
    cases content with
    | none => exact scanParts_atom (.string v.name) _ _
    | some content =>
      have hfind : scanContent vs (some v.name) = v.scan := by
        have := find?_name hn hmem
        simp only [scanContent, Option.some.injEq, this]
      have hread : (scanContent vs (some v.name)).Reads content := by
        rw [hfind]
        exact (hv v hmem).scans a content hcontent
      exact scanParts_object [(v.name, content)] fun m hm => by
        rw [List.mem_singleton.1 hm]
        exact hread
  decodes _ _ _ := trivial
  absent _ _ := trivial

end

/-! ## Codecs of all values -/

/-- A codec without loss on all values of its type. -/
class Codec.Lossless {α : Type} (c : Codec α) : Prop where
  faithful : c.Faithful Anything

class Fields.Lossless {α : Type} (f : Fields α) : Prop where
  faithful : f.Faithful Anything

section
variable {α β : Type}

@[simp] theorem Codec.Lossless.encode_isSome (c : Codec α) [hc : c.Lossless] (a : α) :
    (c.encode a).isSome = true :=
  Option.isSome_iff_exists.2 (hc.faithful.encodes a trivial)

theorem Codec.option_lossless {c : Codec α} [hc : c.Lossless] (hnull : ∀ a, c.encode a ≠ some .null)
    (hscan : c.scan.Reads .null) : c.option.Lossless :=
  ⟨(option_faithful hc.faithful hnull hscan).congr
    fun _ => ⟨fun _ => trivial, fun _ _ _ => trivial⟩⟩

instance : Fields.nil.Lossless := ⟨.nil⟩

instance {name : String} {c : Codec α} {rest : Fields β} [hc : c.Lossless] [hr : rest.Lossless] :
    (Fields.cons name c rest).Lossless :=
  have h := Fields.Faithful.cons hc.faithful hr.faithful
  ⟨{ encodes := fun v _ => h.encodes v ⟨trivial, trivial⟩
     lawful := h.lawful
     scans := h.scans
     decodes := fun _ _ _ => trivial }⟩

theorem Codec.record_lossless {f : Fields α} [hf : f.Lossless] {pack : α → β} {unpack : β → α}
    (hn : f.names.Nodup) (hpack : ∀ b, pack (unpack b) = b) (hunpack : ∀ a, unpack (pack a) = a) :
    (Codec.record f pack unpack).Lossless :=
  ⟨record_faithful hf.faithful hn hpack hunpack⟩

theorem Alternative.Faithful.of {name : String} {c : Codec α} [hc : c.Lossless] {inject : α → β}
    {project : β → Option α} (h : ∀ b a, project b = some a → inject a = b) :
    (Alternative.of name c inject project).Faithful where
  lawful := Alternative.of_lawful hc.faithful.lawful h
  scans b content hb := by
    obtain ⟨j, hj, hjc⟩ := Option.map_eq_some_iff.1 hb
    cases hjc
    obtain ⟨a, _, haj⟩ := Option.bind_eq_some_iff.1 hj
    exact hc.faithful.scans a content haj

theorem Codec.name_lossless [DecidableEq α] {names : List (String × α)}
    (hn : (names.map (·.1)).Nodup) (hall : ∀ a, a ∈ names.map (·.2)) :
    (Codec.name names).Lossless := by
  refine ⟨choice_faithful ?_ ?_ fun a => ?_⟩
  · rw [List.map_map]
    exact hn
  · intro v hv
    obtain ⟨m, _, rfl⟩ := List.mem_map.1 hv
    exact .unit m.1 m.2
  · obtain ⟨m, hm, rfl⟩ := List.mem_map.1 (hall a)
    exact ⟨_, List.mem_map_of_mem hm, by simp [Alternative.unit]⟩

end

/-! ## Single values -/

namespace Codec

/-- A codec whose trees have no parts and are read by `readValue`. -/
theorem lossless_of_atoms {α : Type} {c : Codec α} (hc : c.Lawful) (hscan : c.scan = readValue)
    (h : ∀ a, ∃ j, c.encode a = some j ∧ j.Atom) : c.Lossless where
  faithful :=
    { encodes := fun a _ => (h a).imp fun _ => And.left
      lawful := hc
      scans := fun a j hj => by
        obtain ⟨k, hk, hatom⟩ := h a
        cases hj.symm.trans hk
        rw [hscan]
        exact readValue_atom hatom
      decodes := fun _ _ _ => trivial
      absent := fun _ _ => trivial }

instance : bool.Lossless := lossless_of_atoms bool_lawful rfl fun b => ⟨_, rfl, .bool b⟩

instance : uint64.Lossless := lossless_of_atoms uint64_lawful rfl fun v => ⟨_, rfl, .number v.toNat⟩

instance : uint32.Lossless := lossless_of_atoms uint32_lawful rfl fun v => ⟨_, rfl, .number v.toNat⟩

instance : uint256.Lossless := lossless_of_atoms uint256_lawful rfl fun v => ⟨_, rfl, .string v.hex⟩

instance : bytes.Lossless :=
  lossless_of_atoms bytes_lawful rfl fun l => ⟨_, rfl, .string (Hex.encode l)⟩

instance (n : Nat) : (fixed n).Lossless where
  faithful :=
    { encodes := fun _ _ => ⟨_, rfl⟩
      lawful := fixed_lawful n
      scans := fun b j hj => by
        have hatom := Json.Atom.string (Hex.ofBytes b)
        cases hj
        -- A text does not start with a bracket, so it is read as any value is.
        exact ⟨hatom.begins, fun fuel rest => (readValue_atom hatom).reads fuel rest⟩
      decodes := fun _ _ _ => trivial
      absent := fun _ _ => trivial }

instance : uint64.option.Lossless :=
  option_lossless (fun _ h => by cases h) (readValue_atom .null)

/-! ## Time -/

theorem secondsAndNanos_faithful {seconds nanos : String} (h : seconds ≠ nanos) :
    (secondsAndNanos seconds nanos).Faithful Anything :=
  Fields.codec_faithful Fields.Lossless.faithful (by simpa [Fields.cons, Fields.nil] using h) true

instance : duration.Lossless where
  faithful := via_faithful (secondsAndNanos_faithful (by decide)) duration_lawful
    (fun _ _ => ⟨_, rfl, trivial⟩) fun _ _ _ _ => trivial

theorem instant_faithful : instant.Faithful fun t => Instant.epoch ≤ t :=
  via_faithful (secondsAndNanos_faithful (by decide)) instant_lawful
    (fun _ ht => ⟨_, if_pos ht, trivial⟩) fun v t _ ht => by
      have hnanos := Instant.ofNanos?_eq_some_iff.1 ht
      show 0 ≤ t.nanos
      omega

end Codec

end StakeKeeper.Wire
