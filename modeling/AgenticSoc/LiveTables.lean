import AgenticSoc.Sorting
import Mathlib

/-!
# Tables of open cells

A cell belongs to a window and to one part of it. A table holds the accumulators of the
cells still open; the cells of a range of windows are closed together, in the order of
their keys. What was ever put into the cells is a book; the ledger says that every cell of
the book is either open in the table or was taken out of it once.
-/
namespace LiveTables

open Sorting

variable {κ α : Type} [LinearOrder κ]

abbrev Table (κ α : Type) := AList fun _ : Int × κ => α

abbrev Book (κ α : Type) := Int × κ → Option α

def Book.put (book : Book κ α) (k : Int × κ) (a : α) : Book κ α := Function.update book k (some a)

/-- The open cells of a range of windows, in the order of their keys. -/
def dueKeys (t : Table κ α) (lo hi : Int) : List (Int × κ) :=
  sortBy toLex (t.keys.filter fun k => lo ≤ k.1 ∧ k.1 ≤ hi)

def allKeys (t : Table κ α) : List (Int × κ) := sortBy toLex t.keys

def taken (t : Table κ α) (keys : List (Int × κ)) : List ((Int × κ) × α) :=
  keys.filterMap fun k => (t.lookup k).map (k, ·)

def without (t : Table κ α) (keys : List (Int × κ)) : Table κ α := keys.foldl (fun t k => t.erase k) t

/-- A window that lies behind the closed ones. -/
def Open (closed : Option Int) (wid : Int) : Prop := ∀ d ∈ closed, d ≤ wid

instance (closed : Option Int) (wid : Int) : Decidable (Open closed wid) :=
  match closed with
  | none => isTrue fun _ h => nomatch h
  | some d => decidable_of_iff (d ≤ wid) (by simp [Open])

@[simp] theorem open_none (wid : Int) : Open none wid := fun _ h => nomatch h

@[simp] theorem open_some {d wid : Int} : Open (some d) wid ↔ d ≤ wid := by simp [Open]

theorem lookup_without (t : Table κ α) (keys : List (Int × κ)) (k : Int × κ) :
    (without t keys).lookup k = if k ∈ keys then none else t.lookup k := by
  unfold without
  induction keys generalizing t with
  | nil => simp
  | cons k' keys ih =>
    rw [List.foldl_cons, ih]
    by_cases hk : k = k'
    · subst hk
      simp [AList.lookup_erase]
    · simp [hk, AList.lookup_erase_ne hk]

theorem mem_dueKeys {t : Table κ α} {lo hi : Int} {k : Int × κ} :
    k ∈ dueKeys t lo hi ↔ k ∈ t ∧ lo ≤ k.1 ∧ k.1 ≤ hi := by
  simp [dueKeys, mem_sortBy, AList.mem_keys]

theorem dueKeys_nodup (t : Table κ α) (lo hi : Int) : (dueKeys t lo hi).Nodup :=
  (sortBy_perm toLex _).nodup_iff.mpr (t.keys_nodup.filter _)

theorem mem_taken {t : Table κ α} {keys : List (Int × κ)} {k : Int × κ} {a : α} :
    (k, a) ∈ taken t keys ↔ k ∈ keys ∧ t.lookup k = some a := by
  simp only [taken, List.mem_filterMap, Option.map_eq_some_iff, Prod.mk.injEq]
  constructor
  · rintro ⟨k', hk', a', ha', rfl, rfl⟩
    exact ⟨hk', ha'⟩
  · rintro ⟨hk, ha⟩
    exact ⟨k, hk, a, ha, rfl, rfl⟩

/-- The keys of what is taken out are among the keys asked for, in their order. -/
theorem taken_keys (t : Table κ α) (keys : List (Int × κ)) : ((taken t keys).map Prod.fst).Sublist keys := by
  unfold taken
  induction keys with
  | nil => simp
  | cons k keys ih =>
    cases hk : t.lookup k with
    | none => simpa [List.filterMap_cons, hk] using ih.cons k
    | some a => simpa [List.filterMap_cons, hk] using ih.cons_cons k

theorem mem_of_lookup {t : Table κ α} {k : Int × κ} {a : α} (h : t.lookup k = some a) : k ∈ t :=
  AList.lookup_isSome.mp (by rw [h]; rfl)

/-- Every cell of the book is open in the table or was taken out of it once. -/
structure Ledger (book : Book κ α) (closed : Option Int) (t : Table κ α) (emitted : List ((Int × κ) × α)) : Prop where
  live : ∀ k, t.lookup k = if Open closed k.1 then book k else none
  once : (emitted.map Prod.fst).Nodup
  settled : ∀ k a, (k, a) ∈ emitted ↔ ¬ Open closed k.1 ∧ book k = some a

section Kept

variable {book : Book κ α} {closed : Option Int} {t : Table κ α} {emitted : List ((Int × κ) × α)}

theorem ledger_empty : Ledger (fun _ => none : Book κ α) none ∅ [] :=
  ⟨fun k => by simp, List.nodup_nil, fun k a => by simp⟩

theorem Ledger.put (h : Ledger book closed t emitted) {k : Int × κ} (hk : Open closed k.1) (a : α) :
    Ledger (book.put k a) closed (t.insert k a) emitted where
  live k' := by
    by_cases he : k' = k
    · subst he
      simp [AList.lookup_insert, hk, Book.put]
    · rw [AList.lookup_insert_ne he, h.live k', Book.put, Function.update_of_ne he]
  once := h.once
  settled k' a' := by
    by_cases he : k' = k
    · subst he
      rw [h.settled]
      simp [hk]
    · rw [h.settled, Book.put, Function.update_of_ne he]

/-- No cell of an open window has been taken out. -/
theorem Ledger.not_taken (h : Ledger book closed t emitted) {e : (Int × κ) × α} (he : e ∈ emitted) :
    ¬ Open closed e.1.1 := ((h.settled e.1 e.2).mp he).1

theorem Ledger.close (h : Ledger book closed t emitted) {lo hi : Int} (hlo : ∀ k a, t.lookup k = some a → lo ≤ k.1)
    (hhi : ∀ d ∈ closed, d ≤ hi + 1) :
    Ledger book (some (hi + 1)) (without t (dueKeys t lo hi)) (emitted ++ taken t (dueKeys t lo hi)) where
  live k := by
    have hopen : hi + 1 ≤ k.1 → Open closed k.1 := fun hk d hd => (hhi d hd).trans hk
    rw [lookup_without]
    simp only [mem_dueKeys, open_some]
    cases hk : t.lookup k with
    | none =>
      have hlive := h.live k
      rw [hk] at hlive
      rw [ite_self]
      split_ifs with hge
      · rwa [if_pos (hopen hge)] at hlive
      · rfl
    | some a =>
      have hlive := h.live k
      have hmem := mem_of_lookup hk
      have hge := hlo k a hk
      rw [hk] at hlive
      by_cases hle : k.1 ≤ hi
      · rw [if_pos ⟨hmem, hge, hle⟩, if_neg (by omega)]
      · rw [if_neg (by tauto), if_pos (by omega)]
        rwa [if_pos (hopen (by omega))] at hlive
  once := by
    rw [List.map_append, List.nodup_append]
    refine ⟨h.once, (dueKeys_nodup t lo hi).sublist (taken_keys _ _), ?_⟩
    rintro k hk k' hk' rfl
    obtain ⟨e, he, rfl⟩ := List.mem_map.mp hk
    obtain ⟨⟨_, a⟩, hd, rfl⟩ := List.mem_map.mp hk'
    have hlive := h.live e.1
    rw [if_neg (h.not_taken he), ((mem_taken).mp hd).2] at hlive
    cases hlive
  settled k a := by
    rw [List.mem_append, h.settled, mem_taken, mem_dueKeys, open_some]
    constructor
    · rintro (⟨hk, ha⟩ | ⟨⟨-, -, hk⟩, ha⟩)
      · refine ⟨fun hge => hk fun d hd => (hhi d hd).trans hge, ha⟩
      · refine ⟨by omega, ?_⟩
        rw [h.live] at ha
        split at ha
        · exact ha
        · cases ha
    · rintro ⟨hk, ha⟩
      by_cases hopen : Open closed k.1
      · have hlive := h.live k
        rw [if_pos hopen, ha] at hlive
        exact .inr ⟨⟨mem_of_lookup hlive, hlo k a hlive, by omega⟩, hlive⟩
      · exact .inl ⟨hopen, ha⟩

/-- Taking out all that is open settles the whole book. -/
theorem Ledger.finish (h : Ledger book closed t emitted) :
    ((emitted ++ taken t (allKeys t)).map Prod.fst).Nodup ∧
      ∀ k a, (k, a) ∈ emitted ++ taken t (allKeys t) ↔ book k = some a := by
  have hall : ∀ k, k ∈ allKeys t ↔ k ∈ t := fun k => by simp [allKeys, mem_sortBy, AList.mem_keys]
  constructor
  · rw [List.map_append, List.nodup_append]
    refine ⟨h.once, ((sortBy_perm toLex _).nodup_iff.mpr t.keys_nodup).sublist (taken_keys _ _), ?_⟩
    rintro k hk k' hk' rfl
    obtain ⟨e, he, rfl⟩ := List.mem_map.mp hk
    obtain ⟨⟨_, a⟩, hd, rfl⟩ := List.mem_map.mp hk'
    have hlive := h.live e.1
    rw [if_neg (h.not_taken he), ((mem_taken).mp hd).2] at hlive
    cases hlive
  · intro k a
    rw [List.mem_append, h.settled, mem_taken, hall, h.live]
    by_cases hopen : Open closed k.1
    · have hmem : book k = some a → k ∈ t := fun ha => mem_of_lookup ((h.live k).trans ((if_pos hopen).trans ha))
      simpa [hopen] using hmem
    · simp [hopen]

end Kept

/-! ## Books filled by feeds -/

section Feeds

variable {β : Type} (start : Int × κ → β → α) (step : α → β → α)

/-- The open cell of a feed takes it, a new cell when there was none. -/
def feedTable (t : Table κ α) (feed : (Int × κ) × β) : Table κ α :=
  t.insert feed.1 (step ((t.lookup feed.1).getD (start feed.1 feed.2)) feed.2)

def Book.feed (book : Book κ α) (feed : (Int × κ) × β) : Book κ α :=
  book.put feed.1 (step ((book feed.1).getD (start feed.1 feed.2)) feed.2)

def bookOf (feeds : List ((Int × κ) × β)) : Book κ α := feeds.foldl (Book.feed start step) fun _ => none

/-- What was fed to a cell, in order. -/
def feedsAt (k : Int × κ) (feeds : List ((Int × κ) × β)) : List β := (feeds.filter fun f => f.1 = k).map Prod.snd

variable {start step} in
/-- A table that is fed cells of open windows keeps up with the book. -/
theorem Ledger.feed {book : Book κ α} {closed : Option Int} {t : Table κ α} {emitted : List ((Int × κ) × α)}
    (h : Ledger book closed t emitted) {f : (Int × κ) × β} (hopen : Open closed f.1.1) :
    feedTable start step t f = t.insert f.1 (step ((book f.1).getD (start f.1 f.2)) f.2) := by
  rw [feedTable, h.live, if_pos hopen]

theorem bookOf_append (feeds more : List ((Int × κ) × β)) :
    bookOf start step (feeds ++ more) = more.foldl (Book.feed start step) (bookOf start step feeds) :=
  List.foldl_append

theorem feedsAt_append (k : Int × κ) (feeds more : List ((Int × κ) × β)) :
    feedsAt k (feeds ++ more) = feedsAt k feeds ++ feedsAt k more := by
  simp [feedsAt]

/-- A cell made for the first of its feeds, after all of them. -/
def filled (k : Int × κ) : List β → Option α
  | [] => none
  | f :: fs => some ((f :: fs).foldl step (start k f))

omit [LinearOrder κ] in
theorem filled_append (k : Int × κ) (fs : List β) (f : β) :
    filled start step k (fs ++ [f]) = some (step ((filled start step k fs).getD (start k f)) f) := by
  cases fs with
  | nil => rfl
  | cons g gs => simp [filled]

/-- A cell holds the steps of what was fed to it and of nothing else. -/
theorem bookOf_apply (feeds : List ((Int × κ) × β)) (k : Int × κ) :
    bookOf start step feeds k = filled start step k (feedsAt k feeds) := by
  induction feeds using List.reverseRecOn with
  | nil => rfl
  | append_singleton feeds f ih =>
    rw [bookOf_append, List.foldl_cons, List.foldl_nil, feedsAt_append, Book.feed, Book.put]
    by_cases hk : k = f.1
    · subst hk
      have hone : feedsAt f.1 [f] = [f.2] := by simp [feedsAt]
      rw [Function.update_self, ih, hone, filled_append]
    · have hother : feedsAt k [f] = [] := by simp [feedsAt, Ne.symm hk]
      rw [Function.update_of_ne hk, ih, hother, List.append_nil]

theorem bookOf_some {feeds : List ((Int × κ) × β)} {k : Int × κ} {a : α} (h : bookOf start step feeds k = some a) :
    ∃ f fs, feedsAt k feeds = f :: fs ∧ a = (f :: fs).foldl step (start k f) := by
  rw [bookOf_apply] at h
  cases hfs : feedsAt k feeds with
  | nil =>
    rw [hfs] at h
    cases h
  | cons f fs =>
    rw [hfs] at h
    exact ⟨f, fs, rfl, (Option.some.inj h).symm⟩

/-- A cell that was fed is in the book. -/
theorem bookOf_fed {feeds : List ((Int × κ) × β)} {f : (Int × κ) × β} (hf : f ∈ feeds) :
    ∃ a, bookOf start step feeds f.1 = some a := by
  have hmem : f.2 ∈ feedsAt f.1 feeds := List.mem_map.mpr ⟨f, List.mem_filter.mpr ⟨hf, by simp⟩, rfl⟩
  rw [bookOf_apply]
  cases hfs : feedsAt f.1 feeds with
  | nil =>
    rw [hfs] at hmem
    cases hmem
  | cons g gs => exact ⟨_, rfl⟩

omit [LinearOrder κ] in
theorem sum_indicator [DecidableEq κ] {keys : List κ} (hkeys : keys.Nodup) {k : κ} (hk : k ∈ keys) :
    (keys.map fun k' => if k' = k then 1 else 0).sum = 1 := by
  induction keys with
  | nil => cases hk
  | cons k' keys ih =>
    obtain ⟨hnot, hkeys⟩ := List.nodup_cons.mp hkeys
    by_cases he : k' = k
    · subst he
      have hzero : (keys.map fun k => if k = k' then 1 else 0).sum = 0 :=
        List.sum_eq_zero fun n hn => by
          obtain ⟨k, hk, rfl⟩ := List.mem_map.mp hn
          exact if_neg fun he : k = k' => hnot (he ▸ hk)
      simp [hzero]
    · simp [he, ih hkeys ((List.mem_cons.mp hk).resolve_left (Ne.symm he))]

/-- Every feed is counted at one of the cells that were fed. -/
theorem sum_feedsAt {keys : List (Int × κ)} (hkeys : keys.Nodup) {feeds : List ((Int × κ) × β)}
    (hall : ∀ f ∈ feeds, f.1 ∈ keys) : (keys.map fun k => (feedsAt k feeds).length).sum = feeds.length := by
  induction feeds with
  | nil => simp [feedsAt]
  | cons f feeds ih =>
    have hone := sum_indicator hkeys (hall f List.mem_cons_self)
    have hsplit : ∀ k, (feedsAt k (f :: feeds)).length = (if k = f.1 then 1 else 0) + (feedsAt k feeds).length := by
      intro k
      by_cases hk : k = f.1
      · simp [feedsAt, hk, Nat.add_comm]
      · simp [feedsAt, hk, Ne.symm hk]
    simp only [hsplit, List.sum_map_add, hone, List.length_cons]
    rw [ih fun g hg => hall g (List.mem_cons_of_mem f hg), Nat.add_comm]

/-- The rows count every event once, at the cells of its window that it belongs to. -/
structure CountedOnce {E Row : Type} (window : E → Int) (parts : E → List κ) (key : Row → Int × κ) (count : Row → Nat)
    (events : List E) (rows : List Row) : Prop where
  once : (rows.map key).Nodup
  counted : ∀ row ∈ rows, count row = events.countP fun e => window e = (key row).1 ∧ (key row).2 ∈ parts e
  occupied : ∀ row ∈ rows, 0 < count row
  covered : ∀ e ∈ events, ∀ part ∈ parts e, ∃ row ∈ rows, key row = (window e, part)
  total : (rows.map count).sum = (events.map fun e => (parts e).length).sum

/-- The feeds of events to the cells they belong to. -/
def feedsOf {E : Type} (window : E → Int) (feeds : E → List (κ × β)) (events : List E) : List ((Int × κ) × β) :=
  events.flatMap fun e => (feeds e).map fun f => ((window e, f.1), f.2)

omit [LinearOrder κ] in
theorem feedsOf_append {E : Type} (window : E → Int) (feeds : E → List (κ × β)) (events more : List E) :
    feedsOf window feeds (events ++ more) = feedsOf window feeds events ++ feedsOf window feeds more :=
  List.flatMap_append

omit [LinearOrder κ] in
theorem feedsOf_length {E : Type} (window : E → Int) (feeds : E → List (κ × β)) (events : List E) :
    (feedsOf window feeds events).length = (events.map fun e => ((feeds e).map Prod.fst).length).sum := by
  simp [feedsOf, List.length_flatMap]

omit [LinearOrder κ] in
theorem mem_feedsOf {E : Type} {window : E → Int} {feeds : E → List (κ × β)} {events : List E} {f : (Int × κ) × β} :
    f ∈ feedsOf window feeds events ↔ ∃ e ∈ events, ∃ g ∈ feeds e, f = ((window e, g.1), g.2) := by
  simp [feedsOf, eq_comm]

theorem countP_part (wid : Int) (k : Int × κ) {parts : List κ} (h : parts.Nodup) :
    (parts.countP fun part => (wid, part) = k) = if wid = k.1 ∧ k.2 ∈ parts then 1 else 0 := by
  obtain ⟨w, c⟩ := k
  induction parts with
  | nil => simp
  | cons part parts ih =>
    obtain ⟨hnot, hnodup⟩ := List.nodup_cons.mp h
    rw [List.countP_cons, ih hnodup]
    by_cases hw : wid = w
    · by_cases he : part = c
      · subst he
        simp [hw, hnot]
      · simp [hw, he, Ne.symm he]
    · simp [hw]

section Counted

variable {E Row : Type} {window : E → Int} {feeds : E → List (κ × β)} (hparts : ∀ e, ((feeds e).map Prod.fst).Nodup)

include hparts

/-- An event is fed to a cell when the cell is in its window and among its parts. -/
theorem feedsAt_length (events : List E) (k : Int × κ) :
    (feedsAt k (feedsOf window feeds events)).length =
      events.countP fun e => window e = k.1 ∧ k.2 ∈ (feeds e).map Prod.fst := by
  induction events with
  | nil => rfl
  | cons e events ih =>
    have hone : (feedsAt k ((feeds e).map fun f => ((window e, f.1), f.2))).length =
        if window e = k.1 ∧ k.2 ∈ (feeds e).map Prod.fst then 1 else 0 := by
      rw [feedsAt, List.length_map, List.filter_map, List.length_map, ← List.countP_eq_length_filter,
        ← countP_part (window e) k (hparts e), List.countP_map]
      rfl
    rw [feedsOf, List.flatMap_cons, feedsAt_append, List.length_append, hone, List.countP_cons, ← feedsOf, ih, Nat.add_comm]
    simp only [decide_eq_true_eq]

/-- Rows made of all the cells of a book count every event once. -/
theorem countedOnce {key : Row → Int × κ} {count : Row → Nat} {events : List E} {rows : List Row}
    {cells : List ((Int × κ) × α)} (hnodup : (cells.map Prod.fst).Nodup)
    (hcells : ∀ k a, (k, a) ∈ cells ↔ bookOf start step (feedsOf window feeds events) k = some a)
    (hkey : rows.map key = cells.map Prod.fst)
    (hcount : ∀ row ∈ rows, count row = (feedsAt (key row) (feedsOf window feeds events)).length) :
    CountedOnce window (fun e => (feeds e).map Prod.fst) key count events rows := by
  have hfed : ∀ f ∈ feedsOf window feeds events, f.1 ∈ cells.map Prod.fst := by
    intro f hf
    obtain ⟨a, hbook⟩ := bookOf_fed start step hf
    exact List.mem_map_of_mem (f := Prod.fst) ((hcells _ _).mpr hbook)
  refine ⟨hkey ▸ hnodup, fun row hrow => ?_, fun row hrow => ?_, fun e he part hpart => ?_, ?_⟩
  · rw [hcount row hrow, feedsAt_length hparts]
  · have hmem : key row ∈ cells.map Prod.fst := hkey ▸ List.mem_map_of_mem hrow
    obtain ⟨⟨k, a⟩, hc, hk⟩ := List.mem_map.mp hmem
    obtain ⟨f, fs, hfs, -⟩ := bookOf_some start step ((hcells k a).mp hc)
    rw [hcount row hrow, ← hk, hfs]
    exact Nat.succ_pos _
  · obtain ⟨f, hf, rfl⟩ := List.mem_map.mp hpart
    have hmem := hfed _ ((mem_feedsOf).mpr ⟨e, he, f, hf, rfl⟩)
    rw [← hkey] at hmem
    exact List.mem_map.mp hmem
  · have hsame : rows.map count = (cells.map Prod.fst).map fun k => (feedsAt k (feedsOf window feeds events)).length := by
      rw [← hkey, List.map_map]
      exact List.map_congr_left hcount
    rw [hsame, sum_feedsAt hnodup hfed, feedsOf_length]

end Counted

end Feeds

end LiveTables
