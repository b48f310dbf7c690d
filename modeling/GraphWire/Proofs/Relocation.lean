import GraphWire.Proofs.Copies

/-!
# `Proofs.Relocation` — what a field reads as does not depend on where it is stored

A field is read in a configuration, and the store that this is in only marks the walkers that are read.
Reading in one store is therefore reading in another and marking the walkers anew.

## Contents
- **Maps.** `OrderedMap.mapValues`, which keeps the keys and their order.
- **Fields.** **`FieldKind.read_relocate`**, and `FieldKind.references_relocate`: the names of what is
  read through schemas stay the same.
-/

namespace GraphWire

/-! ## Maps -/

namespace Entry

variable {α β : Type}

/-- The entries with their values replaced by images. -/
def mapValues (f : α → β) (entries : List (String × α)) : List (String × β) :=
  entries.map fun e => (e.1, f e.2)

theorem keys_mapValues (f : α → β) (entries : List (String × α)) :
    keys (mapValues f entries) = keys entries := by
  rw [keys, mapValues, List.map_map]
  rfl

theorem put_mapValues (f : α → β) (key : String) (value : α) (entries : List (String × α)) :
    put key (f value) (mapValues f entries) = mapValues f (put key value entries) := by
  induction entries with
  | nil => rfl
  | cons e rest ih =>
    show put key (f value) ((e.1, f e.2) :: mapValues f rest) = _
    rw [put, put]
    by_cases hk : e.1 = key
    · rw [if_pos hk, if_pos hk]
      rfl
    · rw [if_neg hk, if_neg hk, ih]
      rfl

end Entry

namespace OrderedMap

variable {α β : Type}

def mapValues (f : α → β) (m : OrderedMap α) : OrderedMap β :=
  ⟨Entry.mapValues f m.entries, by
    rw [Entry.keys_mapValues]
    exact m.nodup⟩

theorem ofList_mapValues (f : α → β) (entries : List (String × α)) :
    ofList (Entry.mapValues f entries) = (ofList entries).mapValues f := by
  have hfold : ∀ m : OrderedMap α,
      (Entry.mapValues f entries).foldl (fun m e => m.insert e.1 e.2) (m.mapValues f)
        = (entries.foldl (fun m e => m.insert e.1 e.2) m).mapValues f := by
    induction entries with
    | nil =>
      intro m
      rfl
    | cons e rest ih =>
      intro m
      have hinsert : (m.mapValues f).insert e.1 (f e.2) = (m.insert e.1 e.2).mapValues f :=
        OrderedMap.ext (Entry.put_mapValues f e.1 e.2 m.entries)
      show (Entry.mapValues f rest).foldl _ ((m.mapValues f).insert e.1 (f e.2)) = _
      rw [hinsert, ih]
      rfl
  exact hfold empty

end OrderedMap

/-! ## Fields -/

namespace Element

/-- What was read in some store as it is read in another one: walkers are in that store. -/
def relocate (store : StoreId) : (e : Element) → e.Carrier → e.Carrier
  | scalar _, x => x
  | object _, walker => ⟨store, walker.name⟩

theorem references_relocate (store : StoreId) (e : Element) (x : e.Carrier) :
    e.references (e.relocate store x) = e.references x := by
  cases e <;> rfl

theorem convert_relocate (store store' : StoreId) (e : Element) (r : Resolved) :
    e.convert store r = (e.convert store' r).map (e.relocate store) := by
  cases e with
  | scalar t =>
    show t.convert r.stored = (t.convert r.stored).map id
    cases t.convert r.stored <;> rfl
  | object schema => cases r <;> rfl

end Element

theorem mapM_map {ε α β γ : Type} (f : α → Except ε β) (g : β → γ) (items : List α) :
    (items.mapM fun x => (f x).map g) = (items.mapM f).map (List.map g) := by
  induction items with
  | nil => rfl
  | cons x items ih =>
    rw [List.mapM_cons, List.mapM_cons, ih]
    cases hx : f x with
    | error fault => rfl
    | ok y =>
      cases items.mapM f with
      | error fault => rfl
      | ok ys => rfl

namespace FieldKind

def relocate (store : StoreId) : (kind : FieldKind) → kind.Carrier → kind.Carrier
  | single e, x => e.relocate store x
  | optional e, x => x.map (e.relocate store)
  | sequence e, xs => xs.map (e.relocate store)
  | mapping e, m => m.mapValues (e.relocate store)

theorem readSequence_relocate (store store' : StoreId) (e : Element) (config : Config)
    (owner name : String) :
    readSequence e store config owner name
      = (readSequence e store' config owner name).map (List.map (e.relocate store)) := by
  rw [readSequence, readSequence]
  cases resolvedOrAbsent config owner name with
  | error fault => rfl
  | ok r =>
    rcases r with - | r
    · rfl
    cases r with
    | sequence names =>
      show names.mapM _ = Except.map _ (names.mapM _)
      rw [← mapM_map]
      exact mapM_congr fun s _ => e.convert_relocate store store' _
    | numbers items =>
      show items.mapM _ = Except.map _ (items.mapM _)
      rw [← mapM_map]
      exact mapM_congr fun n _ => e.convert_relocate store store' _
    | object target => rfl
    | text s => rfl
    | number n => rfl

/-- **What a field reads as depends on the contents of its store alone**, but for the walkers, which are in
    the store. -/
theorem read_relocate (store store' : StoreId) (config : Config) (owner name : String)
    (kind : FieldKind) :
    kind.read store config owner name
      = (kind.read store' config owner name).map (kind.relocate store) := by
  cases kind with
  | single e =>
    rw [read, read]
    cases config.required owner name with
    | error fault => rfl
    | ok r => exact e.convert_relocate store store' r
  | optional e =>
    rw [read, read]
    cases resolvedOrAbsent config owner name with
    | error fault => rfl
    | ok r =>
      rcases r with - | r
      · rfl
      show (e.convert store r >>= _) = Except.map _ (e.convert store' r >>= _)
      rw [e.convert_relocate store store' r]
      cases e.convert store' r <;> rfl
  | sequence e => exact readSequence_relocate store store' e config owner name
  | mapping e =>
    rw [read, read]
    cases readKeys config owner name with
    | error fault => rfl
    | ok keys =>
      show (readSequence e store config owner name >>= _)
        = Except.map _ (readSequence e store' config owner name >>= _)
      rw [readSequence_relocate store store']
      cases readSequence e store' config owner name with
      | error fault => rfl
      | ok xs =>
        have hzip : keys.zip (xs.map (e.relocate store))
            = Entry.mapValues (e.relocate store) (keys.zip xs) := by
          rw [List.zip_map_right]
          rfl
        show (if keys.length ≠ (xs.map (e.relocate store)).length then _ else _)
          = Except.map _ (if keys.length ≠ xs.length then _ else _)
        rw [List.length_map, hzip, OrderedMap.ofList_mapValues]
        split <;> rfl

theorem references_relocate (store : StoreId) (kind : FieldKind) (x : kind.Carrier) :
    kind.references (kind.relocate store x) = kind.references x := by
  cases kind with
  | single e => exact e.references_relocate store x
  | optional e =>
    cases x with
    | none => rfl
    | some x =>
      show (Option.toList (some (e.relocate store x))).flatMap e.references = _
      simp only [references, Option.toList_some, List.flatMap_singleton, e.references_relocate]
  | sequence e =>
    show (x.map (e.relocate store)).flatMap e.references = x.flatMap e.references
    rw [List.flatMap_map]
    simp only [e.references_relocate]
  | mapping e =>
    show ((x.entries.map fun y => (y.1, e.relocate store y.2)).map Prod.snd).flatMap e.references
      = (x.entries.map Prod.snd).flatMap e.references
    rw [List.map_map, List.flatMap_map, List.flatMap_map]
    simp only [Function.comp_apply, e.references_relocate]

end FieldKind

end GraphWire
