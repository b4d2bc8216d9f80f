import AgenticSoc.Procedure
import AgenticSoc.WindowSorter

/-!
# The replay runner

Three streams of rows, each sorted by window, are merged window by window. What happens
within a window is a procedure of its own.
-/
namespace ReplayRunner

open Procedure WindowSorting

/-- The streams by their names. -/
inductive Tag where
  | network | behavior | communication
  deriving DecidableEq, Repr

/-- A dictionary over the names of the streams. -/
structure Streams (α : Type) where
  network : Option α
  behavior : Option α
  communication : Option α
  deriving DecidableEq

def Streams.get {α : Type} (s : Streams α) : Tag → Option α
  | .network => s.network
  | .behavior => s.behavior
  | .communication => s.communication

def Streams.values {α : Type} (s : Streams α) : List α := s.network.toList ++ s.behavior.toList ++ s.communication.toList

def Streams.map {α β : Type} (f : α → β) (s : Streams α) : Streams β :=
  ⟨s.network.map f, s.behavior.map f, s.communication.map f⟩

/-- A reader with one row of lookahead: not advanced, advanced to a row, or at the end. -/
inductive Peeker (Row : Type) where
  | fresh (it : List Row)
  | ahead (row : Row) (it : List Row)
  | exhausted

variable {Row E σ ρ : Type}

def Peeker.hasNext : Peeker Row → Bool × Peeker Row
  | .fresh [] => (false, .exhausted)
  | .fresh (row :: it) => (true, .ahead row it)
  | .ahead row it => (true, .ahead row it)
  | .exhausted => (false, .exhausted)

/-- The row looked at, for a reader that has a next one. -/
def Peeker.next : Peeker Row → Option Row
  | .ahead row _ => some row
  | _ => none

/-- The rows still to come. -/
def Peeker.pending : Peeker Row → List Row
  | .fresh it => it
  | .ahead row it => row :: it
  | .exhausted => []

@[simp] theorem hasNext_pending (p : Peeker Row) : p.hasNext.2.pending = p.pending := by
  rcases p with it | ⟨row, it⟩ | _
  · cases it <;> rfl
  · rfl
  · rfl

@[simp] theorem hasNext_next (p : Peeker Row) : p.hasNext.2.next = p.pending.head? := by
  rcases p with it | ⟨row, it⟩ | _
  · cases it <;> rfl
  · rfl
  · rfl

variable (codec : RowCodec Row)

def drain (head : Peeker Row) (wid : Int) : List Row × Peeker Row :=
  match _h : head.hasNext.2 with
  | .ahead row it =>
    if codec.windowId row = wid then
      let (rows, head) := drain (.fresh it) wid
      (row :: rows, head)
    else ([], .ahead row it)
  | head => ([], head)
termination_by head.pending.length
decreasing_by
  have hpending := hasNext_pending head
  rw [_h] at hpending
  rw [← hpending]
  exact Nat.lt_succ_self _

/-- The rows of one window. -/
structure Window (Row : Type) where
  windowId : Int
  network : List Row
  behavior : List Row
  communication : List Row
  deriving DecidableEq

/-- What is done when a window begins, and with its rows. -/
structure Body (Row E σ : Type) where
  beginWindow : Int → σ → σ
  process : Window Row → Proc E σ Unit

inductive RunError (E : Type) where
  | orderingError (message : String)
  | keyError (tag : Tag)
  | processing (error : E)
  deriving DecidableEq

structure Runner (Row : Type) where
  sorters : Streams WindowSorter
  heads : Streams (Peeker Row)
  windowIdsSeen : Nat
  minProcessedWid : Option Int
  lastProcessedWid : Option Int

/-- The streams as the sorters give them. -/
def Runner.of (sorters : Streams WindowSorter) : Runner Row :=
  ⟨sorters, sorters.map fun s => .fresh (s.iterSorted codec).1, 0, none, none⟩

/-- A runner over three separate streams. -/
def Runner.separate (chunkRows : ChunkRows) (mergeFanIn : Int) (network behavior communication : List Row) : Runner Row :=
  let makeStream (rows : List Row) := feed codec chunkRows mergeFanIn rows
  .of codec ⟨some (makeStream network), some (makeStream behavior), some (makeStream communication)⟩

/-- The tags of fused records. -/
inductive FusedTag where
  | network | communication
  deriving DecidableEq, Repr

/-- A sorter for each tag, made when its first row comes. -/
def route (chunkRows : ChunkRows) (mergeFanIn : Int) (sorters : Streams WindowSorter) (record : FusedTag × Row) :
    Streams WindowSorter :=
  let given (sorter : Option WindowSorter) := (sorter.getD (.new chunkRows mergeFanIn)).add codec record.2
  match record.1 with
  | .network => { sorters with network := some (given sorters.network) }
  | .communication => { sorters with communication := some (given sorters.communication) }

/-- A runner over fused records and a behaviour stream. -/
def Runner.fused (chunkRows : ChunkRows) (mergeFanIn : Int) (records : List (FusedTag × Row)) (behavior : List Row) :
    Runner Row :=
  let sorters := records.foldl (route codec chunkRows mergeFanIn) ⟨none, none, none⟩
  .of codec { sorters with behavior := some (feed codec chunkRows mergeFanIn behavior) }

/-! ## The run -/

inductive Iteration (Row E σ : Type) where
  | finished (runner : Runner Row) (state : σ)
  | again (runner : Runner Row) (state : σ)
  | raised (error : RunError E) (state : σ)

def Runner.rowsLeft (r : Runner Row) : Nat := ((r.heads.values.map Peeker.pending).flatten).length

/-- One turn of the loop: the least window that has rows. -/
def iteration (body : Body Row E σ) (r : Runner Row) (s : σ) : Iteration Row E σ :=
  let heads := r.heads.map fun h => h.hasNext.2
  match ((heads.values.filterMap Peeker.next).map codec.windowId).min? with
  | none => .finished { r with heads := heads } s
  | some target =>
    if r.lastProcessedWid.any (target < ·) then
      .raised (.orderingError s!"sorted streams produced window {target} after {r.lastProcessedWid.getD 0}; ordering violation") s
    else
      let s := body.beginWindow target s
      match heads.network, heads.behavior, heads.communication with
      | none, _, _ => .raised (.keyError .network) s
      | some _, none, _ => .raised (.keyError .behavior) s
      | some _, some _, none => .raised (.keyError .communication) s
      | some network, some behavior, some communication =>
        let (netRows, network) := drain codec network target
        let (behRows, behavior) := drain codec behavior target
        let (commRows, communication) := drain codec communication target
        match body.process ⟨target, netRows, behRows, commRows⟩ s with
        | (.error e, s) => .raised (.processing e) s
        | (.ok (), s) =>
          .again { r with
            heads := ⟨some network, some behavior, some communication⟩
            windowIdsSeen := r.windowIdsSeen + 1
            minProcessedWid := some (r.minProcessedWid.getD target)
            lastProcessedWid := some target } s

/-! ## Draining -/

variable {codec}

/-- A drain takes the rows of the window at the front. -/
theorem drain_spec (head : Peeker Row) (wid : Int) :
    (drain codec head wid).1 = head.pending.takeWhile (codec.windowId · = wid) ∧
      (drain codec head wid).2.pending = head.pending.dropWhile (codec.windowId · = wid) := by
  induction hn : head.pending.length using Nat.strongRecOn generalizing head with
  | _ n ih =>
    have hpending := hasNext_pending head
    rw [drain]
    split
    · rename_i row it h
      rw [h] at hpending
      rw [← hpending] at hn ⊢
      by_cases hrow : codec.windowId row = wid
      · obtain ⟨hrows, hrest⟩ := ih it.length (by rw [← hn]; exact Nat.lt_succ_self _) (.fresh it) rfl
        rw [if_pos hrow]
        simp only [Peeker.pending, List.takeWhile_cons, List.dropWhile_cons, hrow, decide_true, if_true]
        exact ⟨by rw [hrows]; rfl, hrest⟩
      · rw [if_neg hrow]
        simp only [Peeker.pending, List.takeWhile_cons, List.dropWhile_cons, hrow, decide_false, Bool.false_eq_true, if_false]
        exact ⟨trivial, trivial⟩
    · rename_i hnot
      have hend : head.pending = [] := by
        rw [← hpending]
        rcases head with it | ⟨row, it⟩ | _
        · cases it with
          | nil => rfl
          | cons row it => exact absurd rfl (hnot row it)
        · exact absurd rfl (hnot row it)
        · rfl
      rw [hend] at hpending ⊢
      exact ⟨rfl, hpending⟩

theorem drain_pending (head : Peeker Row) (wid : Int) :
    (drain codec head wid).2.pending = head.pending.dropWhile (codec.windowId · = wid) := (drain_spec head wid).2

/-- The rows that are looked at are the first ones of the streams. -/
theorem waiting_heads (heads : Streams (Peeker Row)) :
    (heads.map fun h => h.hasNext.2).values.filterMap Peeker.next =
      heads.values.filterMap fun h => h.pending.head? := by
  have hopt : ∀ o : Option (Peeker Row), (o.map fun h => h.hasNext.2).toList.filterMap Peeker.next =
      o.toList.filterMap fun h => h.pending.head? := by
    intro o
    cases o with
    | none => rfl
    | some h => simp only [Option.map_some, Option.toList_some, List.filterMap_cons, hasNext_next, List.filterMap_nil]
  simp only [Streams.values, Streams.map, List.filterMap_append, hopt]

theorem dropWhile_shorter {α : Type} (p : α → Bool) {l : List α} {a : α} (h : l.head? = some a) (ha : p a = true) :
    (l.dropWhile p).length < l.length := by
  cases l with
  | nil => cases h
  | cons b l =>
    cases h
    rw [List.dropWhile_cons, if_pos ha]
    exact Nat.lt_succ_of_le (List.dropWhile_sublist p).length_le

/-- The rows left in three streams, of which the least window is taken. -/
theorem taken_shorter {l m n : List Row} {target : Int}
    (h : (([l, m, n].filterMap List.head?).map codec.windowId).min? = some target) :
    (l.dropWhile (codec.windowId · = target)).length + (m.dropWhile (codec.windowId · = target)).length +
      (n.dropWhile (codec.windowId · = target)).length < l.length + m.length + n.length := by
  have hle : ∀ l : List Row, (l.dropWhile (codec.windowId · = target)).length ≤ l.length :=
    fun l => (List.dropWhile_sublist _).length_le
  have hl := hle l
  have hm := hle m
  have hn := hle n
  obtain ⟨row, hrow, hwid⟩ := List.mem_map.mp (List.min?_mem h)
  obtain ⟨stream, hstream, hhead⟩ := List.mem_filterMap.mp hrow
  have hshorter := dropWhile_shorter (fun r => decide (codec.windowId r = target)) hhead (decide_eq_true hwid)
  simp only [List.mem_cons, List.not_mem_nil, or_false] at hstream
  rcases hstream with rfl | rfl | rfl <;> omega

/-- A turn that goes on has taken rows. -/
theorem iteration_shorter {body : Body Row E σ} {r r' : Runner Row} {s s' : σ}
    (h : iteration codec body r s = .again r' s') : r'.rowsLeft < r.rowsLeft := by
  unfold iteration at h
  simp only at h
  split at h
  · cases h
  · rename_i target htarget
    rw [waiting_heads] at htarget
    split at h
    · cases h
    · split at h
      · cases h
      · cases h
      · cases h
      · rename_i n b c hn hb hc
        obtain ⟨n', hn', rfl⟩ := Option.map_eq_some_iff.mp hn
        obtain ⟨b', hb', rfl⟩ := Option.map_eq_some_iff.mp hb
        obtain ⟨c', hc', rfl⟩ := Option.map_eq_some_iff.mp hc
        have hvalues : r.heads.values = [n', b', c'] := by
          rw [Streams.values, hn', hb', hc']
          rfl
        have hmin : (([n'.pending, b'.pending, c'.pending].filterMap List.head?).map codec.windowId).min? = some target := by
          rw [← htarget, hvalues]
          rfl
        have hshorter := taken_shorter hmin
        split at h
        · cases h
        · cases h
          simp only [Runner.rowsLeft, hn', hb', hc', Streams.values, Option.toList_some, List.cons_append, List.nil_append,
            List.map_cons, List.map_nil, List.flatten_cons, List.flatten_nil, List.append_nil, List.length_append,
            drain_pending, hasNext_pending]
          omega

variable (codec)

/-- The loop: what it ends with, and the state. -/
def loop (body : Body Row E σ) (r : Runner Row) (s : σ) : Except (RunError E) (Runner Row) × σ :=
  match _h : iteration codec body r s with
  | .finished r s => (.ok r, s)
  | .raised e s => (.error e, s)
  | .again r s => loop body r s
termination_by r.rowsLeft
decreasing_by exact iteration_shorter _h

/-- What a run reports: the windows, the sorters, and the rest as the state has it. -/
structure Summary (ρ : Type) where
  windows : Nat
  windowIdRange : Option Int × Option Int
  orderingDiagnostics : Streams OrderingDiagnostics
  report : ρ

def run (body : Body Row E σ) (report : σ → ρ) (r : Runner Row) (s : σ) : Except (RunError E) (Summary ρ) × σ :=
  match loop codec body r s with
  | (.error e, s) => (.error e, s)
  | (.ok r, s) =>
    (.ok ⟨r.windowIdsSeen, (r.minProcessedWid, r.lastProcessedWid), r.sorters.map fun x => (x.iterSorted codec).2, report s⟩, s)

end ReplayRunner
