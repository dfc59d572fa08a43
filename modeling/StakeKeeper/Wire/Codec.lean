import StakeKeeper.Wire.Json

/-!
Codecs: how values are written as JSON and read from it, and how codecs of parts make codecs of
records and of choices. Records are objects whose members may come in any order, or arrays of all
their fields in order; a choice is the name of an alternative, alone or over its content. A text is
read in two steps: `scan` cuts a tree from it, `decode` takes the value from the tree. Main
statements: a codec is `Lawful` when the tree of a value is decoded to the value, and
`record_lawful`, `choice_lawful` and their companions carry this from parts to wholes.
-/
namespace StakeKeeper.Wire
set_option autoImplicit false

/-- The written form of the values of a type. -/
structure Codec (α : Type) where
  /-- The JSON of a value; none if it has no written form. -/
  encode : α → Option Json
  decode : Json → Option α
  /-- The value of a record's field that is left out, for codecs that allow it. -/
  absent : Option α := none
  scan : Scanner := readValue

/-- Encoded values are decoded. -/
def Codec.Lawful {α : Type} (c : Codec α) : Prop :=
  ∀ a j, c.encode a = some j → c.decode j = some a

def Codec.read? {α : Type} (c : Codec α) (text : String) : Option α :=
  Scanner.whole c.scan text >>= c.decode

def Codec.write? {α : Type} (c : Codec α) (a : α) : Option String := (c.encode a).map Json.write

/-- The text that an accepted text is written as again. -/
def Codec.normalize? {α : Type} (c : Codec α) (text : String) : Option String :=
  c.read? text >>= c.write?

/-! ## Another view of the values -/

/-- The codec of a type whose values are taken apart into values with a codec. -/
def Codec.via {α β : Type} (c : Codec α) (pack : α → Option β) (unpack : β → Option α) :
    Codec β where
  encode b := unpack b >>= c.encode
  decode j := c.decode j >>= pack
  scan := c.scan

theorem Codec.via_lawful {α β : Type} {c : Codec α} {pack : α → Option β} {unpack : β → Option α}
    (hc : c.Lawful) (h : ∀ b a, unpack b = some a → pack a = some b) :
    (c.via pack unpack).Lawful := by
  intro b j hj
  obtain ⟨a, ha, hj⟩ := Option.bind_eq_some_iff.1 hj
  exact Option.bind_eq_some_iff.2 ⟨a, hc a j hj, h b a ha⟩

/-! ## Lists and optional values -/

def Codec.list {α : Type} (c : Codec α) : Codec (List α) where
  encode l := (l.mapM c.encode).map .array
  decode
    | .array es => es.mapM c.decode
    | _ => none
  scan := scanParts (fun _ => c.scan) fun _ => readValue

theorem mapM_decode {α : Type} {c : Codec α} (hc : c.Lawful) :
    ∀ (l : List α) (es : List Json), l.mapM c.encode = some es → es.mapM c.decode = some l
  | [], es, h => by
    simp only [List.mapM_nil, Option.pure_def, Option.some.injEq] at h
    subst h; rfl
  | a :: l, es, h => by
    rw [List.mapM_cons] at h
    obtain ⟨e, he, h⟩ := Option.bind_eq_some_iff.1 h
    obtain ⟨rest, hr, h⟩ := Option.bind_eq_some_iff.1 h
    simp only [Option.pure_def, Option.some.injEq] at h
    subst h
    simp [hc a e he, mapM_decode hc l rest hr]

theorem Codec.list_lawful {α : Type} {c : Codec α} (hc : c.Lawful) : c.list.Lawful := by
  intro l j h
  obtain ⟨es, he, rfl⟩ := Option.map_eq_some_iff.1 h
  exact mapM_decode hc l es he

/-- A value that may be missing is null then, or left out. -/
def Codec.option {α : Type} (c : Codec α) : Codec (Option α) where
  encode
    | none => some .null
    | some a => c.encode a
  decode
    | .null => some none
    | j => (c.decode j).map some
  absent := some none
  scan := c.scan

theorem Codec.option_lawful {α : Type} {c : Codec α} (hc : c.Lawful)
    (hnull : ∀ a, c.encode a ≠ some .null) : c.option.Lawful := by
  intro o j h
  match o with
  | none =>
    have hj : Json.null = j := Option.some.inj h
    subst hj; rfl
  | some a =>
    have hj : c.encode a = some j := h
    cases j with
    | null => exact absurd hj (hnull a)
    | _ => simp only [option, hc a _ hj, Option.map_some]

/-! ## Records -/

/-- Named fields in the order in which they are written; `α` holds their values. -/
structure Fields (α : Type) where
  names : List String
  scans : List Scanner
  encode : α → Option (List Json)
  /-- The values of the fields in order, each of which may be left out. -/
  decode : List (Option Json) → Option α

def Fields.nil : Fields Unit where
  names := []
  scans := []
  encode _ := some []
  decode
    | [] => some ()
    | _ => none

def Fields.cons {α β : Type} (name : String) (c : Codec α) (rest : Fields β) : Fields (α × β) where
  names := name :: rest.names
  scans := c.scan :: rest.scans
  encode v := do
    let j ← c.encode v.1
    let js ← rest.encode v.2
    pure (j :: js)
  decode
    | some j :: js => do
      let a ← c.decode j
      let b ← rest.decode js
      pure (a, b)
    | none :: js => do
      let a ← c.absent
      let b ← rest.decode js
      pure (a, b)
    | [] => none

/-- The member of a name, if there is one; no answer if there are several. -/
def single? (ms : List (Text × Json)) (name : String) : Option (Option Json) :=
  match ms.filter (·.1 = some name) with
  | [] => some none
  | [m] => some (some m.2)
  | _ => none

/-- Whether a name may occur in a record. An open record passes over names that it does not know. -/
def Fields.admits {α : Type} (f : Fields α) (closed : Bool) : Text → Bool
  | none => false
  | some name => !closed || f.names.contains name

/-- The scanner of the field of a name; of any value if there is no such field. -/
def Fields.scanNamed {α : Type} (f : Fields α) (name : Text) : Scanner :=
  (((f.names.map some).zip f.scans).lookup name).getD readValue

/-- The values of the fields as an object, read also from an array. -/
def Fields.codec {α : Type} (f : Fields α) (closed : Bool) : Codec α where
  encode v := (f.encode v).map fun js => .object ((f.names.map some).zip js)
  decode
    | .array es => f.decode (es.map some)
    | .object ms =>
      if ms.all fun m => f.admits closed m.1 then f.names.mapM (single? ms) >>= f.decode else none
    | _ => none
  scan := scanParts (fun i => f.scans.getD i readValue) f.scanNamed

/-- A record of fields that passes over members it does not know. -/
def Codec.record {α β : Type} (f : Fields α) (pack : α → β) (unpack : β → α) : Codec β :=
  (f.codec false).via (fun a => some (pack a)) (fun b => some (unpack b))

def Fields.Lawful {α : Type} (f : Fields α) : Prop :=
  ∀ v js, f.encode v = some js → js.length = f.names.length ∧ f.decode (js.map some) = some v

theorem Fields.nil_lawful : Fields.nil.Lawful := by
  intro v js h
  have hj : [] = js := Option.some.inj h
  subst hj
  exact ⟨rfl, rfl⟩

theorem Fields.cons_lawful {α β : Type} {name : String} {c : Codec α} {rest : Fields β}
    (hc : c.Lawful) (hr : rest.Lawful) : (Fields.cons name c rest).Lawful := by
  intro v js h
  obtain ⟨j, hj, h⟩ := Option.bind_eq_some_iff.1 h
  obtain ⟨ks, hk, h⟩ := Option.bind_eq_some_iff.1 h
  simp only [Option.pure_def, Option.some.injEq] at h
  subst h
  obtain ⟨hlen, hdec⟩ := hr v.2 ks hk
  refine ⟨by simp [cons, hlen], ?_⟩
  simp [cons, hc v.1 j hj, hdec]

theorem filter_zip_eq_nil {name : String} :
    ∀ (names : List String) (js : List Json), name ∉ names →
      ((names.map some).zip js).filter (fun m : Text × Json => m.1 = some name) = []
  | [], js, _ => by simp
  | n :: ns, [], _ => by simp
  | n :: ns, j :: js, h => by
    have hn : ¬ n = name := fun e => h (e ▸ List.mem_cons_self)
    have ih := filter_zip_eq_nil ns js fun hm => h (List.mem_cons_of_mem _ hm)
    simp [hn, ih]

theorem mapM_single? :
    ∀ (before : List (Text × Json)) (names : List String) (js : List Json),
      names.Nodup → js.length = names.length →
      (∀ n ∈ names, before.filter (fun m => m.1 = some n) = []) →
      names.mapM (single? (before ++ (names.map some).zip js)) = some (js.map some)
  | _, [], js, _, hlen, _ => by
    have : js = [] := List.eq_nil_of_length_eq_zero (by simpa using hlen)
    subst this; rfl
  | before, n :: ns, [], _, hlen, _ => by simp at hlen
  | before, n :: ns, j :: js, hnd, hlen, hb => by
    obtain ⟨hn, hns⟩ := List.nodup_cons.1 hnd
    have hsingle : single? (before ++ (some n, j) :: (ns.map some).zip js) n = some (some j) := by
      have hz := filter_zip_eq_nil ns js hn
      have hbn := hb n List.mem_cons_self
      simp only [single?, List.filter_append, hbn, List.nil_append, List.filter_cons, decide_true,
        if_true, hz]
    have ih := mapM_single? (before ++ [(some n, j)]) ns js hns (by simpa using hlen)
      (fun m hm => by
        have hne : ¬ n = m := fun e => hn (e ▸ hm)
        simp [List.filter_append, hb m (List.mem_cons_of_mem _ hm), hne])
    simp only [List.append_assoc, List.singleton_append] at ih
    simp only [List.map_cons, List.zip_cons_cons, List.mapM_cons, hsingle, ih]
    rfl

theorem Fields.codec_lawful {α : Type} {f : Fields α} (hf : f.Lawful) (hn : f.names.Nodup)
    (closed : Bool) : (f.codec closed).Lawful := by
  intro v j h
  obtain ⟨js, hj, rfl⟩ := Option.map_eq_some_iff.1 h
  obtain ⟨hlen, hdec⟩ := hf v js hj
  have hall : ((f.names.map some).zip js).all (fun m => f.admits closed m.1) = true := by
    rw [List.all_eq_true]
    rintro ⟨t, k⟩ hm
    have ht := (List.of_mem_zip hm).1
    obtain ⟨n, hn, rfl⟩ := List.mem_map.1 ht
    simp [admits, hn]
  have hs := mapM_single? [] f.names js hn hlen (by simp)
  simp only [List.nil_append] at hs
  simp [codec, hall, hs, hdec]

theorem Codec.record_lawful {α β : Type} {f : Fields α} {pack : α → β} {unpack : β → α}
    (hf : f.Lawful) (hn : f.names.Nodup) (h : ∀ b, pack (unpack b) = b) :
    (Codec.record f pack unpack).Lawful :=
  via_lawful (f.codec_lawful hf hn false) fun b a ha => by
    have ha : unpack b = a := Option.some.inj ha
    rw [← ha, h]

/-! ## Choices -/

structure Alternative (α : Type) where
  name : String
  /-- The content of a value, which may be empty; none for the values of other alternatives. -/
  encode : α → Option (Option Json)
  decode : Option Json → Option α
  scan : Scanner := readValue

/-- The alternative of a single value, without content or with null. -/
def Alternative.unit {α : Type} [DecidableEq α] (name : String) (a : α) : Alternative α where
  name := name
  encode b := if b = a then some none else none
  decode
    | none => some a
    | some .null => some a
    | _ => none

def Alternative.of {α β : Type} (name : String) (c : Codec β) (inject : β → α)
    (project : α → Option β) : Alternative α where
  name := name
  encode a := ((project a).bind c.encode).map some
  decode content := (content.bind c.decode).map inject
  scan := c.scan

/-- The name of an alternative, alone or over its content. -/
def named (name : String) : Option Json → Json
  | none => .string (some name)
  | some content => .object [(some name, content)]

/-- The scanner of the content under a name; of any value if there is no such alternative. -/
def scanContent {α : Type} (alternatives : List (Alternative α)) (name : Text) : Scanner :=
  match alternatives.find? (some ·.name = name) with
  | some v => v.scan
  | none => readValue

def Codec.choice {α : Type} (alternatives : List (Alternative α)) : Codec α where
  encode a := alternatives.findSome? fun v => (v.encode a).map (named v.name)
  decode
    | .string (some name) => do
      let v ← alternatives.find? (·.name = name)
      v.decode none
    | .object [(some name, content)] => do
      let v ← alternatives.find? (·.name = name)
      v.decode (some content)
    | _ => none
  scan := scanParts (fun _ => readValue) (scanContent alternatives)

def Codec.name {α : Type} [DecidableEq α] (names : List (String × α)) : Codec α :=
  .choice (names.map fun (name, a) => .unit name a)

def Alternative.Lawful {α : Type} (v : Alternative α) : Prop :=
  ∀ a content, v.encode a = some content → v.decode content = some a

theorem Alternative.unit_lawful {α : Type} [DecidableEq α] (name : String) (a : α) :
    (Alternative.unit name a).Lawful := by
  intro b content h
  simp only [unit, Option.ite_none_right_eq_some, Option.some.injEq] at h
  obtain ⟨rfl, rfl⟩ := h
  rfl

theorem Alternative.of_lawful {α β : Type} {name : String} {c : Codec β} {inject : β → α}
    {project : α → Option β} (hc : c.Lawful)
    (h : ∀ a b, project a = some b → inject b = a) :
    (Alternative.of name c inject project).Lawful := by
  intro a content ha
  obtain ⟨j, hj, rfl⟩ := Option.map_eq_some_iff.1 ha
  obtain ⟨b, hb, hbj⟩ := Option.bind_eq_some_iff.1 hj
  simp [of, hc b j hbj, h a b hb]

theorem find?_name {α : Type} {v : Alternative α} :
    ∀ {vs : List (Alternative α)}, (vs.map (·.name)).Nodup → v ∈ vs →
      vs.find? (·.name = v.name) = some v
  | [], _, h => by cases h
  | w :: ws, hn, h => by
    simp only [List.map_cons, List.nodup_cons] at hn
    rcases List.mem_cons.1 h with rfl | h
    · simp
    · have hw : ¬ w.name = v.name := fun e => hn.1 (e ▸ List.mem_map.2 ⟨v, h, rfl⟩)
      simp [hw, find?_name hn.2 h]

theorem Codec.choice_lawful {α : Type} {vs : List (Alternative α)}
    (hn : (vs.map (·.name)).Nodup) (hv : ∀ v ∈ vs, v.Lawful) : (Codec.choice vs).Lawful := by
  intro a j h
  obtain ⟨v, hmem, h⟩ := List.exists_of_findSome?_eq_some h
  obtain ⟨content, hc, rfl⟩ := Option.map_eq_some_iff.1 h
  have hfind := find?_name hn hmem
  have hdec := hv v hmem a content hc
  cases content <;> simp [choice, named, hfind, hdec]

end StakeKeeper.Wire
