import AgenticSoc.PythonJson

/-!
# Equal values and equal texts

Python compares numbers by value, whatever their type, and dictionaries whatever their
order. The canonical text of a value with text keys forgets the order as well, but keeps
the type of each number, so it tells values apart that are equal.
-/
namespace PythonEquality

open JsonText PythonJson Sorting

variable {F : Type}

/-- What stands in a value that is no list and no dictionary. -/
def leaf : PyValue F → Option (PyKey F)
  | .none => some .none
  | .bool b => some (.bool b)
  | .int n => some (.int n)
  | .float x => some (.float x)
  | .str s => some (.str s)
  | .list _ _ | .dict _ _ => none

section Comparison

variable (same : PyKey F → PyKey F → Prop)

mutual

/-- Values of one shape with the same leaves and keys, dictionaries in any order. -/
def Alike : PyValue F → PyValue F → Prop
  | .list _ vs, w => ∃ i ws, w = .list i ws ∧ AlikeItems vs ws
  | .dict _ es, w => ∃ i ds, w = .dict i ds ∧ es.length = ds.length ∧ AlikeEntries es ds
  | .none, w => ∃ l, leaf w = some l ∧ same .none l
  | .bool b, w => ∃ l, leaf w = some l ∧ same (.bool b) l
  | .int n, w => ∃ l, leaf w = some l ∧ same (.int n) l
  | .float x, w => ∃ l, leaf w = some l ∧ same (.float x) l
  | .str s, w => ∃ l, leaf w = some l ∧ same (.str s) l

def AlikeItems : List (PyValue F) → List (PyValue F) → Prop
  | [], ws => ws = []
  | v :: vs, ws => ∃ w ws', ws = w :: ws' ∧ Alike v w ∧ AlikeItems vs ws'

/-- Each entry has its like in another dictionary. -/
def AlikeEntries : List (PyKey F × PyValue F) → List (PyKey F × PyValue F) → Prop
  | [], _ => True
  | (k, v) :: es, ds => (∃ d ∈ ds, same k d.1 ∧ Alike v d.2) ∧ AlikeEntries es ds

end

end Comparison

/-- The equality of Python. -/
def Equal (fmt : PyFloats F) : PyValue F → PyValue F → Prop := Alike fun k l => keyRank fmt k = keyRank fmt l

/-- The same value in JSON: numbers are also of the same type. -/
def SameJson : PyValue F → PyValue F → Prop := Alike Eq

theorem alikeItems_iff (same : PyKey F → PyKey F → Prop) {vs ws : List (PyValue F)} :
    AlikeItems same vs ws ↔ List.Forall₂ (Alike same) vs ws := by
  induction vs generalizing ws with
  | nil => simp [AlikeItems]
  | cons v vs ih =>
    rw [AlikeItems, List.forall₂_cons_left_iff]
    constructor
    · rintro ⟨w, ws', rfl, hv, hvs⟩
      exact ⟨w, ws', hv, ih.mp hvs, rfl⟩
    · rintro ⟨w, ws', hv, hvs, rfl⟩
      exact ⟨w, ws', rfl, hv, ih.mpr hvs⟩

theorem alikeEntries_iff (same : PyKey F → PyKey F → Prop) {es ds : List (PyKey F × PyValue F)} :
    AlikeEntries same es ds ↔ ∀ e ∈ es, ∃ d ∈ ds, same e.1 d.1 ∧ Alike same e.2 d.2 := by
  induction es with
  | nil => simp [AlikeEntries]
  | cons e es ih =>
    obtain ⟨k, v⟩ := e
    rw [AlikeEntries, ih, List.forall_mem_cons]

theorem alike_list (same : PyKey F → PyKey F → Prop) {i : Option Nat} {vs : List (PyValue F)} {w : PyValue F} :
    Alike same (.list i vs) w ↔ ∃ i' ws, w = .list i' ws ∧ List.Forall₂ (Alike same) vs ws := by
  rw [Alike]
  simp only [alikeItems_iff]

theorem alike_dict (same : PyKey F → PyKey F → Prop) {i : Option Nat} {es : List (PyKey F × PyValue F)} {w : PyValue F} :
    Alike same (.dict i es) w ↔ ∃ i' ds, w = .dict i' ds ∧ es.length = ds.length ∧
      ∀ e ∈ es, ∃ d ∈ ds, same e.1 d.1 ∧ Alike same e.2 d.2 := by
  rw [Alike]
  simp only [alikeEntries_iff]

theorem alike_leaf (same : PyKey F → PyKey F → Prop) {v w : PyValue F} {k : PyKey F} (hk : leaf v = some k) :
    Alike same v w ↔ ∃ l, leaf w = some l ∧ same k l := by
  cases v with
  | list i vs => cases hk
  | dict i es => cases hk
  | none => cases hk; rw [Alike]
  | bool b => cases hk; rw [Alike]
  | int n => cases hk; rw [Alike]
  | float x => cases hk; rw [Alike]
  | str s => cases hk; rw [Alike]

theorem sameJson_leaf {v w : PyValue F} {k l : PyKey F} (hk : leaf v = some k) (hl : leaf w = some l) :
    SameJson v w ↔ k = l := by
  rw [SameJson, alike_leaf Eq hk, hl]
  exact ⟨fun ⟨_, hsome, hkl⟩ => hkl.trans (Option.some.inj hsome).symm, fun h => ⟨l, rfl, h⟩⟩

theorem forall₂_imp_mem {α β : Type} {P Q : α → β → Prop} {l : List α} {l' : List β} (h : List.Forall₂ P l l')
    (himp : ∀ a ∈ l, ∀ b, P a b → Q a b) : List.Forall₂ Q l l' := by
  induction h with
  | nil => exact .nil
  | cons hab _ ih => exact .cons (himp _ List.mem_cons_self _ hab) (ih fun a ha => himp a (List.mem_cons_of_mem _ ha))

theorem Alike.mono {same same' : PyKey F → PyKey F → Prop} (h : ∀ k l, same k l → same' k l) {v w : PyValue F}
    (hvw : Alike same v w) : Alike same' v w := by
  have hleaf : ∀ (v w : PyValue F) k, leaf v = some k → Alike same v w → Alike same' v w := by
    intro v w k hk hvw
    rw [alike_leaf _ hk] at hvw ⊢
    exact hvw.imp fun l hl => ⟨hl.1, h _ _ hl.2⟩
  induction v generalizing w with
  | list i vs ih =>
    obtain ⟨i', ws, rfl, hitems⟩ := (alike_list same).mp hvw
    exact (alike_list same').mpr ⟨i', ws, rfl, forall₂_imp_mem hitems fun v hv w hvw => ih v hv hvw⟩
  | dict i es ih =>
    obtain ⟨i', ds, rfl, hlength, hentries⟩ := (alike_dict same).mp hvw
    refine (alike_dict same').mpr ⟨i', ds, rfl, hlength, fun e he => ?_⟩
    obtain ⟨d, hd, hkey, hvalue⟩ := hentries e he
    exact ⟨d, hd, h _ _ hkey, ih e he hvalue⟩
  | none => exact hleaf _ _ _ rfl hvw
  | bool b => exact hleaf _ _ _ rfl hvw
  | int n => exact hleaf _ _ _ rfl hvw
  | float x => exact hleaf _ _ _ rfl hvw
  | str s => exact hleaf _ _ _ rfl hvw

/-- What is the same in JSON is equal. -/
theorem SameJson.equal (fmt : PyFloats F) {v w : PyValue F} (h : SameJson v w) : Equal fmt v w :=
  Alike.mono (fun _ _ hkl => congrArg (keyRank fmt) hkl) h

section Encodings

variable {fmt : PyFloats F}

theorem encode_leaf {v : PyValue F} {k : PyKey F} {j : Json F} (hk : leaf v = some k) (hj : encode fmt v = some j) :
    j = k.scalar := by
  cases v with
  | list i vs => cases hk
  | dict i es => cases hk
  | int n =>
    cases hk
    rw [encode] at hj
    split at hj <;> cases hj
    rfl
  | float x =>
    cases hk
    rw [encode] at hj
    split at hj <;> cases hj
    rfl
  | none => cases hk; cases hj; rfl
  | bool b => cases hk; cases hj; rfl
  | str s => cases hk; cases hj; rfl

/-- A list or a dictionary is written otherwise than a leaf. -/
theorem leaf_of_encode {w : PyValue F} {k : PyKey F} (hw : encode fmt w = some k.scalar) : leaf w = some k := by
  cases hl : leaf w with
  | some l => rw [scalar_inj (encode_leaf hl hw)]
  | none =>
    cases w with
    | list i vs =>
      obtain ⟨js, -, hjs⟩ := Option.map_eq_some_iff.mp hw
      cases k <;> cases hjs
    | dict i es =>
      obtain ⟨ms, -, -, hobj⟩ := (encode_dict fmt).mp hw
      cases k <;> cases hobj
    | none => cases hl
    | bool b => cases hl
    | int n => cases hl
    | float x => cases hl
    | str s => cases hl

/-- Texts as keys are known by their members. -/
theorem written_key {e d : PyKey F × PyValue F} {m : PyKey F × String × Json F} {n : PyKey F × String × Json F}
    (hm : Written fmt e m) (hn : Written fmt d n) (he : e.1.isStr = true) (hd : d.1.isStr = true) (h : m.2.1 = n.2.1) :
    e.1 = d.1 := by
  obtain ⟨-, hok, htext, -⟩ := hm
  obtain ⟨-, hok', htext', -⟩ := hn
  refine keyText_inj fmt hok hok' (he.trans hd.symm) ?_
  rw [htext, htext', String.ofList_inj] at h
  exact h

theorem scalar_ne_arr {k : PyKey F} {js : List (Json F)} : k.scalar ≠ .arr js := by cases k <;> nofun

theorem scalar_ne_obj {k : PyKey F} {ms : List (String × Json F)} : k.scalar ≠ .obj ms := by cases k <;> nofun

theorem list_of_encode {w : PyValue F} {js : List (Json F)} (hw : encode fmt w = some (.arr js)) :
    ∃ i ws, w = .list i ws ∧ List.Forall₂ (fun v j => encode fmt v = some j) ws js := by
  cases hl : leaf w with
  | some l => exact absurd (encode_leaf hl hw).symm scalar_ne_arr
  | none =>
    cases w with
    | list i ws =>
      obtain ⟨js', hjs, harr⟩ := Option.map_eq_some_iff.mp hw
      cases harr
      exact ⟨i, ws, rfl, (encodeItems_some fmt).mp hjs⟩
    | dict i es =>
      obtain ⟨ms, -, -, hobj⟩ := (encode_dict fmt).mp hw
      cases hobj
    | none => cases hl
    | bool b => cases hl
    | int n => cases hl
    | float x => cases hl
    | str s => cases hl

theorem dict_of_encode {w : PyValue F} {members : List (String × Json F)} (hw : encode fmt w = some (.obj members)) :
    ∃ i ds, w = .dict i ds := by
  cases hl : leaf w with
  | some l => exact absurd (encode_leaf hl hw).symm scalar_ne_obj
  | none =>
    cases w with
    | list i ws =>
      obtain ⟨js', -, harr⟩ := Option.map_eq_some_iff.mp hw
      cases harr
    | dict i es => exact ⟨i, es, rfl⟩
    | none => cases hl
    | bool b => cases hl
    | int n => cases hl
    | float x => cases hl
    | str s => cases hl

/-- Lists are written alike when their items are. -/
theorem items_eq_iff {vs ws : List (PyValue F)} {js ks : List (Json F)} {P : PyValue F → PyValue F → Prop}
    (hvs : List.Forall₂ (fun v j => encode fmt v = some j) vs js) (hws : List.Forall₂ (fun v j => encode fmt v = some j) ws ks)
    (hP : ∀ v ∈ vs, ∀ w ∈ ws, ∀ j k, encode fmt v = some j → encode fmt w = some k → (j = k ↔ P v w)) :
    js = ks ↔ List.Forall₂ P vs ws := by
  induction hvs generalizing ws ks with
  | nil =>
    cases hws with
    | nil => exact ⟨fun _ => .nil, fun _ => rfl⟩
    | cons _ _ => exact ⟨nofun, nofun⟩
  | cons hv _ ih =>
    cases hws with
    | nil => exact ⟨nofun, nofun⟩
    | cons hw hrest =>
      rw [List.cons.injEq, List.forall₂_cons, hP _ List.mem_cons_self _ List.mem_cons_self _ _ hv hw,
        ih hrest fun v hv w hw => hP v (List.mem_cons_of_mem _ hv) w (List.mem_cons_of_mem _ hw)]

/-- Members that are all among others of the same number are those, in another order. -/
theorem members_perm {ms ns : List (PyKey F × String × Json F)} (hnodup : (ms.map fun m => keyRank fmt m.1).Nodup)
    (hlength : ns.length ≤ ms.length) (hsub : ∀ m ∈ ms, m ∈ ns) : ms.Perm ns :=
  (List.subperm_of_subset (hnodup.of_map _) hsub).perm_of_length_le hlength

/-- Dictionaries with text keys are written alike when each entry has its like. -/
theorem entries_eq_iff {i i' : Option Nat} {es ds : List (PyKey F × PyValue F)} {j k : Json F}
    {P : PyValue F → PyValue F → Prop} (hes : encode fmt (.dict i es) = some j) (hds : encode fmt (.dict i' ds) = some k)
    (hnodup : (es.map fun e => keyRank fmt e.1).Nodup) (hte : ∀ e ∈ es, e.1.isStr = true) (htd : ∀ d ∈ ds, d.1.isStr = true)
    (hP : ∀ e ∈ es, ∀ d ∈ ds, ∀ j k, encode fmt e.2 = some j → encode fmt d.2 = some k → (j = k ↔ P e.2 d.2)) :
    j = k ↔ es.length = ds.length ∧ ∀ e ∈ es, ∃ d ∈ ds, e.1 = d.1 ∧ P e.2 d.2 := by
  obtain ⟨ms, hms, -, rfl⟩ := (encode_dict fmt).mp hes
  obtain ⟨ns, hns, -, rfl⟩ := (encode_dict fmt).mp hds
  have hranks : (ms.map fun m => keyRank fmt m.1).Nodup := by
    rw [written_ranks fmt hms]
    exact hnodup
  rw [Json.obj.injEq]
  constructor
  · intro hsame
    have hlength := congrArg List.length hsame
    simp only [List.length_map, (sortBy_perm _ _).length_eq] at hlength
    refine ⟨by rw [hms.length_eq, hns.length_eq, hlength], fun e he => ?_⟩
    obtain ⟨m, hm, hem⟩ := exists_right hms he
    have hin : m.2 ∈ (sortBy (fun n => keyRank fmt n.1) ns).map Prod.snd := by
      rw [← hsame]
      exact List.mem_map_of_mem ((mem_sortBy).mpr hm)
    obtain ⟨n, hn, hnm⟩ := List.mem_map.mp hin
    obtain ⟨d, hd, hdn⟩ := exists_left hns ((mem_sortBy).mp hn)
    have hkey := written_key hem hdn (hte e he) (htd d hd) (congrArg Prod.fst hnm.symm)
    exact ⟨d, hd, hkey, (hP e he d hd _ _ hem.2.2.2 hdn.2.2.2).mp (congrArg Prod.snd hnm.symm)⟩
  · rintro ⟨hlength, hall⟩
    have hsub : ∀ m ∈ ms, m ∈ ns := by
      intro m hm
      obtain ⟨e, he, hem⟩ := exists_left hms hm
      obtain ⟨d, hd, hkey, hvalue⟩ := hall e he
      obtain ⟨n, hn, hdn⟩ := exists_right hns hd
      have hmember := (hP e he d hd _ _ hem.2.2.2 hdn.2.2.2).mpr hvalue
      obtain ⟨hmkey, -, hmtext, -⟩ := hem
      obtain ⟨hnkey, -, hntext, -⟩ := hdn
      have hsame : m = n := by
        refine Prod.ext (hmkey.trans (hkey.trans hnkey.symm)) (Prod.ext ?_ hmember)
        rw [hmtext, hntext, hkey]
      exact hsame ▸ hn
    have hperm := members_perm hranks (by rw [← hms.length_eq, ← hns.length_eq, hlength]) hsub
    rw [sortBy_congr hperm hranks]

theorem encode_leaf_iff {v w : PyValue F} {l : PyKey F} (hl : leaf v = some l) {j k : Json F}
    (hj : encode fmt v = some j) (hk : encode fmt w = some k) : j = k ↔ SameJson v w := by
  rw [SameJson, alike_leaf _ hl, encode_leaf hl hj]
  constructor
  · rintro rfl
    exact ⟨l, leaf_of_encode hk, rfl⟩
  · rintro ⟨l', hl', rfl⟩
    exact (encode_leaf hl' hk).symm

/-- Values with text keys are written alike when they are the same in JSON. -/
theorem encode_eq_iff {v w : PyValue F} (hv : DistinctKeys fmt v) (htv : TextKeys v) (htw : TextKeys w) {j k : Json F}
    (hj : encode fmt v = some j) (hk : encode fmt w = some k) : j = k ↔ SameJson v w := by
  induction v generalizing w j k with
  | none => exact encode_leaf_iff rfl hj hk
  | bool b => exact encode_leaf_iff rfl hj hk
  | int n => exact encode_leaf_iff rfl hj hk
  | float x => exact encode_leaf_iff rfl hj hk
  | str s => exact encode_leaf_iff rfl hj hk
  | list i vs ih =>
    obtain ⟨js, hjs, rfl⟩ := Option.map_eq_some_iff.mp hj
    have hvs := (encodeItems_some fmt).mp hjs
    cases hv with
    | list _ _ hdistinct =>
    cases htv with
    | list _ _ htexts =>
    have hitems : ∀ {i' ws ks}, TextKeys (.list i' ws) → List.Forall₂ (fun v j => encode fmt v = some j) ws ks →
        (js = ks ↔ List.Forall₂ SameJson vs ws) := by
      intro i' ws ks htw hws
      cases htw with
      | list _ _ htexts' =>
      exact items_eq_iff hvs hws fun v hv w hw j k hj hk => ih v hv (hdistinct v hv) (htexts v hv) (htexts' w hw) hj hk
    rw [SameJson, alike_list]
    constructor
    · rintro rfl
      obtain ⟨i', ws, rfl, hws⟩ := list_of_encode hk
      exact ⟨i', ws, rfl, (hitems htw hws).mp rfl⟩
    · rintro ⟨i', ws, rfl, hsame⟩
      obtain ⟨ks, hks, rfl⟩ := Option.map_eq_some_iff.mp hk
      rw [(hitems htw ((encodeItems_some fmt).mp hks)).mpr hsame]
  | dict i es ih =>
    cases hv with
    | dict _ _ hnodup hdistinct =>
    cases htv with
    | dict _ _ hkeys htexts =>
    have hentries : ∀ {i' ds}, TextKeys (.dict i' ds) → encode fmt (.dict i' ds) = some k →
        (j = k ↔ es.length = ds.length ∧ ∀ e ∈ es, ∃ d ∈ ds, e.1 = d.1 ∧ SameJson e.2 d.2) := by
      intro i' ds htw hk
      cases htw with
      | dict _ _ hkeys' htexts' =>
      exact entries_eq_iff hj hk hnodup hkeys hkeys' fun e he d hd _ _ hj hk =>
        ih e he (hdistinct e he) (htexts e he) (htexts' d hd) hj hk
    rw [SameJson, alike_dict]
    constructor
    · intro hsame
      obtain ⟨ms, -, -, hms⟩ := (encode_dict fmt).mp hj
      obtain ⟨i', ds, rfl⟩ := dict_of_encode (hk.trans (congrArg some (hsame.symm.trans hms)))
      exact ⟨i', ds, rfl, (hentries htw hk).mp hsame⟩
    · rintro ⟨i', ds, rfl, hsame⟩
      exact (hentries htw hk).mpr hsame

end Encodings

end PythonEquality
