import AgenticSoc.Sorting
import Mathlib.Data.String.Basic
import Mathlib.Data.List.Induction
import Mathlib.Data.List.Lex

/-!
# The graph on the screen

A snapshot is rebuilt into nodes and links when its topology has changed; otherwise the
values of the nodes and links that are there are replaced. Whether the topology has changed
is read off a text made of the identities.
-/
namespace PresentationGraph

/-- The identity of a node and the rest of what the backend says of it. -/
structure RiskNode (X : Type) where
  entityId : String
  content : X
  deriving DecidableEq

structure Edge (Y : Type) where
  srcEntityId : String
  dstEntityId : String
  content : Y
  deriving DecidableEq

inductive GraphSnapshot (X Y Z : Type) where
  | deviceRisk (nodes : List (RiskNode X)) (edges : List (Edge Y))
  | communication (nodes : List String) (edges : List (Edge Z))

inductive GraphKind where
  | risk
  | communication
  deriving DecidableEq, Repr

/-- The layout replaces the name of an end by its node. -/
inductive Endpoint where
  | name (id : String)
  | node (id : String)
  deriving DecidableEq, Repr

def sourceId : Endpoint → String
  | .name id => id
  | .node id => id

/-- A node with its position and velocity, which are the layout's. -/
structure PresentationNode (X P : Type) where
  id : String
  kind : GraphKind
  risk : Option (RiskNode X)
  communication : Option String
  position : Option P

structure PresentationLink (Y Z : Type) where
  id : String
  source : Endpoint
  target : Endpoint
  kind : GraphKind
  risk : Option (Edge Y)
  communication : Option (Edge Z)

structure PresentationGraphData (X Y Z P : Type) where
  nodes : List (PresentationNode X P)
  links : List (PresentationLink Y Z)

variable {X Y Z P : Type}

/-- A character in the language's own units, two of them where one is too short. -/
def charUnits (c : Char) : List Nat :=
  if c.toNat < 0x10000 then [c.toNat]
  else [0xD800 + (c.toNat - 0x10000) / 0x400, 0xDC00 + (c.toNat - 0x10000) % 0x400]

def codeUnits (text : String) : List Nat := text.toList.flatMap charUnits

/-- Texts in the order of their units. -/
def sortTexts (texts : List String) : List String := Sorting.sortBy codeUnits texts

theorem sortTexts_perm (texts : List String) : (sortTexts texts).Perm texts := Sorting.sortBy_perm codeUnits texts

def arrow {V : Type} (e : Edge V) : String := e.srcEntityId ++ ">" ++ e.dstEntityId

def joined (texts : List String) : String := String.ofList (['|'].intercalate (texts.map String.toList))

def GraphSnapshot.nodeIds : GraphSnapshot X Y Z → List String
  | .deviceRisk nodes _ => nodes.map RiskNode.entityId
  | .communication nodes _ => nodes

def GraphSnapshot.arrows : GraphSnapshot X Y Z → List String
  | .deviceRisk _ edges => edges.map arrow
  | .communication _ edges => edges.map arrow

def GraphSnapshot.ends : GraphSnapshot X Y Z → List (String × String)
  | .deviceRisk _ edges => edges.map fun e => (e.srcEntityId, e.dstEntityId)
  | .communication _ edges => edges.map fun e => (e.srcEntityId, e.dstEntityId)

def GraphSnapshot.graphKind : GraphSnapshot X Y Z → String
  | .deviceRisk .. => "device_risk_graph"
  | .communication .. => "communication_graph"

def topologyKey : Option (GraphSnapshot X Y Z) → String
  | none => "empty"
  | some s => s.graphKind ++ ":" ++ joined (sortTexts s.nodeIds) ++ "::" ++ joined (sortTexts s.arrows)

def preservePosition (node : PresentationNode X P) (previous : Option (PresentationNode X P)) : PresentationNode X P :=
  match previous with
  | none => node
  | some previous => { node with position := previous.position }

/-- The last of the elements with a key, as a map has it. -/
def lastWith {α κ : Type} [DecidableEq κ] (key : α → κ) (l : List α) (k : κ) : Option α :=
  l.reverse.find? fun a => key a = k

def riskLink (e : Edge Y) (index : Nat) : PresentationLink Y Z where
  id := "risk:" ++ e.srcEntityId ++ ">" ++ e.dstEntityId ++ ":" ++ toString index
  source := .name e.srcEntityId
  target := .name e.dstEntityId
  kind := .risk
  risk := some e
  communication := none

def communicationLink (e : Edge Z) (index : Nat) : PresentationLink Y Z where
  id := "communication:" ++ e.srcEntityId ++ ">" ++ e.dstEntityId ++ ":" ++ toString index
  source := .name e.srcEntityId
  target := .name e.dstEntityId
  kind := .communication
  risk := none
  communication := some e

def buildPresentationGraph (snapshot : Option (GraphSnapshot X Y Z)) (previous : List (PresentationNode X P)) :
    PresentationGraphData X Y Z P :=
  match snapshot with
  | none => ⟨[], []⟩
  | some (.deviceRisk nodes edges) =>
    { nodes := nodes.map fun risk =>
        preservePosition ⟨risk.entityId, .risk, some risk, none, none⟩ (lastWith PresentationNode.id previous risk.entityId)
      links := edges.mapIdx fun index e => riskLink e index }
  | some (.communication nodes edges) =>
    { nodes := nodes.map fun entityId =>
        preservePosition ⟨entityId, .communication, none, some entityId, none⟩ (lastWith PresentationNode.id previous entityId)
      links := edges.mapIdx fun index e => communicationLink e index }

def updatePresentationValues (current : PresentationGraphData X Y Z P) :
    GraphSnapshot X Y Z → PresentationGraphData X Y Z P
  | .deviceRisk nodes edges =>
    { nodes := current.nodes.map fun node => { node with risk := lastWith RiskNode.entityId nodes node.id }
      links := current.links.map fun link =>
        { link with risk := lastWith arrow edges (sourceId link.source ++ ">" ++ sourceId link.target) } }
  | .communication _ edges =>
    { current with
      links := current.links.map fun link =>
        { link with communication := lastWith arrow edges (sourceId link.source ++ ">" ++ sourceId link.target) } }

structure Cache (X Y Z P : Type) where
  topology : String
  data : PresentationGraphData X Y Z P

/-- What a render shows, and what it keeps for the next one. -/
def useStableGraph (cache : Option (Cache X Y Z P)) (snapshot : Option (GraphSnapshot X Y Z)) :
    Cache X Y Z P :=
  let rebuilt := ⟨topologyKey snapshot, buildPresentationGraph snapshot ((cache.map fun c => c.data.nodes).getD [])⟩
  match cache with
  | none => rebuilt
  | some c =>
    if c.topology ≠ topologyKey snapshot then rebuilt
    else
      match snapshot with
      | none => c
      | some s => { c with data := updatePresentationValues c.data s }

/-! ## Reading a topology back -/

/-- Two colons stand side by side. -/
def doubled : List Char → Bool
  | c :: d :: rest => (c = ':' ∧ d = ':') || doubled (d :: rest)
  | _ => false

/-- An identity that the separators cannot be confused with. -/
structure Plain (id : String) : Prop where
  nonempty : id.toList ≠ []
  bar : '|' ∉ id.toList
  arrow : '>' ∉ id.toList
  colons : doubled id.toList = false
  stop : id.toList.getLast? ≠ some ':'

/-- The text before the first two colons, and the text after them. -/
def cut : List Char → List Char × List Char
  | c :: d :: rest =>
    if c = ':' ∧ d = ':' then ([], rest)
    else ((c :: (cut (d :: rest)).1), (cut (d :: rest)).2)
  | short => (short, [])

theorem cut_append {before : List Char} (hcolons : doubled before = false) (hstop : before.getLast? ≠ some ':')
    (rest : List Char) : cut (before ++ ':' :: ':' :: rest) = (before, rest) := by
  induction before with
  | nil => simp [cut]
  | cons c before ih =>
    cases before with
    | nil =>
      have hc : c ≠ ':' := by simpa using hstop
      simp [cut, hc]
    | cons d before =>
      rw [doubled, Bool.or_eq_false_iff, decide_eq_false_iff_not] at hcolons
      have hrest := ih hcolons.2 (by simpa [List.getLast?_cons_cons] using hstop)
      simp only [List.cons_append] at hrest ⊢
      rw [cut, if_neg hcolons.1, hrest]

theorem doubled_bar (before after : List Char) : doubled (before ++ '|' :: after) = (doubled before || doubled after) := by
  induction before with
  | nil => cases after <;> simp [doubled]
  | cons c before ih =>
    cases before with
    | nil => cases after <;> simp [doubled]
    | cons d before =>
      simp only [List.cons_append] at ih ⊢
      rw [doubled, doubled, ih, Bool.or_assoc]

abbrev bars (texts : List String) : List Char := ['|'].intercalate (texts.map String.toList)

theorem bars_cons_cons (a b : String) (l : List String) : bars (a :: b :: l) = a.toList ++ '|' :: bars (b :: l) := by
  simp [bars, List.intercalate_cons_cons]

/-- Identities side by side still have no two colons, and no colon at the end. -/
theorem bars_plain {l : List String} (h : ∀ id ∈ l, Plain id) :
    doubled (bars l) = false ∧ (bars l).getLast? ≠ some ':' := by
  induction l with
  | nil => exact ⟨rfl, nofun⟩
  | cons a l ih =>
    obtain ⟨hcolons, hstop⟩ := ih fun id hid => h id (List.mem_cons_of_mem a hid)
    have ha := h a List.mem_cons_self
    cases l with
    | nil => simpa [bars] using And.intro ha.colons ha.stop
    | cons b l =>
      have hnil : bars (b :: l) ≠ [] := by
        have hb := (h b (by simp)).nonempty
        cases l with
        | nil => simpa [bars] using hb
        | cons d l => rw [bars_cons_cons]; simp
      rw [bars_cons_cons, doubled_bar, ha.colons, hcolons]
      refine ⟨rfl, ?_⟩
      rw [List.getLast?_append_of_ne_nil _ (List.cons_ne_nil _ _)]
      rwa [List.getLast?_cons_of_ne_nil hnil]

theorem bars_injective {l l' : List String} (h : ∀ t ∈ l, t.toList ≠ [] ∧ '|' ∉ t.toList)
    (h' : ∀ t ∈ l', t.toList ≠ [] ∧ '|' ∉ t.toList) (he : bars l = bars l') : l = l' := by
  have hempty : ∀ l : List String, (∀ t ∈ l, t.toList ≠ [] ∧ '|' ∉ t.toList) → (bars l = [] ↔ l = []) := by
    intro l hl
    cases l with
    | nil => simp [bars]
    | cons a l =>
      have ha := (hl a List.mem_cons_self).1
      cases l with
      | nil => simpa [bars] using ha
      | cons b l => rw [bars_cons_cons]; simp
  have hsplit : ∀ l : List String, (∀ t ∈ l, t.toList ≠ [] ∧ '|' ∉ t.toList) → l ≠ [] →
      (bars l).splitOn '|' = l.map String.toList := by
    intro l hl hne
    refine List.splitOn_intercalate '|' (fun t ht => ?_) (by simpa using hne)
    obtain ⟨text, htext, rfl⟩ := List.mem_map.mp ht
    exact (hl text htext).2
  by_cases hnil : l = []
  · subst hnil
    exact ((hempty l' h').mp (he ▸ rfl)).symm
  · have hnil' : l' ≠ [] := fun hl' => hnil ((hempty l h).mp (he ▸ (hempty l' h').mpr hl'))
    have hmap : l.map String.toList = l'.map String.toList := by
      rw [← hsplit l h hnil, ← hsplit l' h' hnil', he]
    exact List.map_injective_iff.mpr (fun _ _ hs => String.toList_injective hs) hmap

/-- Every identity of the snapshot is plain. -/
structure PlainSnapshot (s : GraphSnapshot X Y Z) : Prop where
  nodes : ∀ id ∈ s.nodeIds, Plain id
  ends : ∀ e ∈ s.ends, Plain e.1 ∧ Plain e.2
  distinct : s.nodeIds.Nodup
  simple : s.ends.Nodup

def arrowText (e : String × String) : String := e.1 ++ ">" ++ e.2

theorem arrows_eq (s : GraphSnapshot X Y Z) : s.arrows = s.ends.map arrowText := by
  cases s <;> simp [GraphSnapshot.arrows, GraphSnapshot.ends, arrow, arrowText, Function.comp_def]

theorem arrowText_injective {e f : String × String} (he : Plain e.1) (hf : Plain f.1) (h : arrowText e = arrowText f) :
    e = f := by
  have hlist : e.1.toList ++ '>' :: e.2.toList = f.1.toList ++ '>' :: f.2.toList := by
    simpa [arrowText, String.toList_append] using congrArg String.toList h
  have hsplit : ∀ e : String × String, Plain e.1 → (e.1.toList ++ '>' :: e.2.toList).takeWhile (· ≠ '>') = e.1.toList := by
    intro e he
    rw [List.takeWhile_append_of_pos fun c hc => by simpa using fun hcc : c = '>' => he.arrow (hcc ▸ hc)]
    simp
  have hfirst : e.1.toList = f.1.toList := by rw [← hsplit e he, ← hsplit f hf, hlist]
  rw [hfirst, List.append_cancel_left_eq, List.cons.injEq] at hlist
  exact Prod.ext (String.toList_injective hfirst) (String.toList_injective hlist.2)

/-- Snapshots with one topology text have one kind, the same nodes and the same edges. -/
theorem topologyKey_same {s t : GraphSnapshot X Y Z} (hs : PlainSnapshot s) (ht : PlainSnapshot t)
    (h : topologyKey (some s) = topologyKey (some t)) :
    s.graphKind = t.graphKind ∧ s.nodeIds.Perm t.nodeIds ∧ s.ends.Perm t.ends := by
  have hlist : ∀ s : GraphSnapshot X Y Z, (topologyKey (some s)).toList =
      s.graphKind.toList ++ ':' :: (bars (sortTexts s.nodeIds) ++ ':' :: ':' :: bars (sortTexts s.arrows)) := by
    intro s
    simp [topologyKey, joined, bars, String.toList_append, String.toList_ofList]
  have htext := congrArg String.toList h
  rw [hlist, hlist] at htext
  have hkind : s.graphKind = t.graphKind := by
    cases s <;> cases t <;> first | rfl | simp [GraphSnapshot.graphKind] at htext
  rw [hkind, List.append_cancel_left_eq, List.cons.injEq] at htext
  have hplain : ∀ s : GraphSnapshot X Y Z, PlainSnapshot s → ∀ id ∈ sortTexts s.nodeIds, Plain id :=
    fun s hs id hid => hs.nodes id ((sortTexts_perm _).mem_iff.mp hid)
  have hcut := congrArg cut htext.2
  rw [cut_append (bars_plain (hplain s hs)).1 (bars_plain (hplain s hs)).2,
    cut_append (bars_plain (hplain t ht)).1 (bars_plain (hplain t ht)).2, Prod.mk.injEq] at hcut
  have hnodes : sortTexts s.nodeIds = sortTexts t.nodeIds :=
    bars_injective (fun id hid => ⟨(hplain s hs id hid).nonempty, (hplain s hs id hid).bar⟩)
      (fun id hid => ⟨(hplain t ht id hid).nonempty, (hplain t ht id hid).bar⟩) hcut.1
  have harrow : ∀ s : GraphSnapshot X Y Z, PlainSnapshot s → ∀ a ∈ sortTexts s.arrows, a.toList ≠ [] ∧ '|' ∉ a.toList := by
    intro s hs a ha
    rw [(sortTexts_perm _).mem_iff, arrows_eq] at ha
    obtain ⟨e, he, rfl⟩ := List.mem_map.mp ha
    obtain ⟨h1, h2⟩ := hs.ends e he
    simp [arrowText, String.toList_append, h1.bar, h2.bar]
  have harrows : sortTexts s.arrows = sortTexts t.arrows := bars_injective (harrow s hs) (harrow t ht) hcut.2
  have hperm : s.arrows.Perm t.arrows := (sortTexts_perm _).symm.trans (harrows ▸ sortTexts_perm _)
  refine ⟨hkind, (sortTexts_perm _).symm.trans (hnodes ▸ sortTexts_perm _), ?_⟩
  -- distinct edges have distinct texts, so the same texts are the same edges
  refine (List.perm_ext_iff_of_nodup hs.simple ht.simple).mpr fun e => ⟨fun he => ?_, fun he => ?_⟩
  · have hmem : arrowText e ∈ t.arrows := hperm.mem_iff.mp (arrows_eq s ▸ List.mem_map_of_mem he)
    rw [arrows_eq] at hmem
    obtain ⟨f, hf, hef⟩ := List.mem_map.mp hmem
    rwa [← arrowText_injective (ht.ends f hf).1 (hs.ends e he).1 hef]
  · have hmem : arrowText e ∈ s.arrows := hperm.mem_iff.mpr (arrows_eq t ▸ List.mem_map_of_mem he)
    rw [arrows_eq] at hmem
    obtain ⟨f, hf, hef⟩ := List.mem_map.mp hmem
    rwa [← arrowText_injective (hs.ends f hf).1 (ht.ends e he).1 hef]

/-! ## What is shown -/

/-- A node without its place on the screen. -/
def nodeFacts (n : PresentationNode X P) : String × GraphKind × Option (RiskNode X) × Option String :=
  (n.id, n.kind, n.risk, n.communication)

def linkFacts (l : PresentationLink Y Z) : (String × String) × GraphKind × Option (Edge Y) × Option (Edge Z) :=
  ((sourceId l.source, sourceId l.target), l.kind, l.risk, l.communication)

def snapshotNodes : GraphSnapshot X Y Z → List (String × GraphKind × Option (RiskNode X) × Option String)
  | .deviceRisk nodes _ => nodes.map fun r => (r.entityId, .risk, some r, none)
  | .communication nodes _ => nodes.map fun id => (id, .communication, none, some id)

def snapshotLinks : GraphSnapshot X Y Z → List ((String × String) × GraphKind × Option (Edge Y) × Option (Edge Z))
  | .deviceRisk _ edges => edges.map fun e => ((e.srcEntityId, e.dstEntityId), .risk, some e, none)
  | .communication _ edges => edges.map fun e => ((e.srcEntityId, e.dstEntityId), .communication, none, some e)

/-- The screen shows the nodes and edges of the snapshot with their values, and nothing else. -/
def Shows (data : PresentationGraphData X Y Z P) : Option (GraphSnapshot X Y Z) → Prop
  | none => data.nodes = [] ∧ data.links = []
  | some s => (data.nodes.map nodeFacts).Perm (snapshotNodes s) ∧ (data.links.map linkFacts).Perm (snapshotLinks s)

theorem nodeFacts_preserve (n : PresentationNode X P) (previous : Option (PresentationNode X P)) :
    nodeFacts (preservePosition n previous) = nodeFacts n := by
  cases previous <;> rfl

theorem links_facts {V F : Type} (link : Edge V → Nat → PresentationLink Y Z) (facts : Edge V → F)
    {read : PresentationLink Y Z → F} (h : ∀ e index, read (link e index) = facts e) (edges : List (Edge V)) :
    (edges.mapIdx fun index e => link e index).map read = edges.map facts := by
  refine List.ext_getElem (by simp) fun i hi hi' => ?_
  simp [h]

theorem build_shows (snapshot : Option (GraphSnapshot X Y Z)) (previous : List (PresentationNode X P)) :
    Shows (buildPresentationGraph snapshot previous) snapshot := by
  cases snapshot with
  | none => exact ⟨rfl, rfl⟩
  | some s =>
    cases s with
    | deviceRisk nodes edges =>
      simp only [Shows, buildPresentationGraph, List.map_map, Function.comp_def, nodeFacts_preserve]
      refine ⟨.refl _, .of_eq ?_⟩
      exact links_facts riskLink _ (fun _ _ => rfl) edges
    | communication nodes edges =>
      simp only [Shows, buildPresentationGraph, List.map_map, Function.comp_def, nodeFacts_preserve]
      refine ⟨.refl _, .of_eq ?_⟩
      exact links_facts communicationLink _ (fun _ _ => rfl) edges

theorem lastWith_of_nodup {α κ : Type} [DecidableEq κ] {key : α → κ} {l : List α} (h : (l.map key).Nodup) {a : α} (ha : a ∈ l) :
    lastWith key l (key a) = some a := by
  unfold lastWith
  cases hfind : l.reverse.find? fun b => key b = key a with
  | none =>
    have hnone := List.find?_eq_none.mp hfind a (List.mem_reverse.mpr ha)
    simp at hnone
  | some b =>
    have hb := List.mem_reverse.mp (List.mem_of_find?_eq_some hfind)
    have hk := of_decide_eq_true (List.find?_some (p := fun b => decide (key b = key a)) hfind)
    rw [List.inj_on_of_nodup_map h hb ha hk]

/-- Distinct edges have distinct texts. -/
theorem PlainSnapshot.arrows_nodup {s : GraphSnapshot X Y Z} (h : PlainSnapshot s) : s.arrows.Nodup := by
  rw [arrows_eq]
  exact List.Nodup.map_on (fun e he f hf hef => arrowText_injective (h.ends e he).1 (h.ends f hf).1 hef) h.simple

/-- With the topology unchanged, replacing the values shows the new snapshot. -/
theorem update_shows {data : PresentationGraphData X Y Z P} {s t : GraphSnapshot X Y Z} (ht : PlainSnapshot t)
    (hkind : s.graphKind = t.graphKind) (hnodes : s.nodeIds.Perm t.nodeIds) (hends : s.ends.Perm t.ends)
    (h : Shows data (some s)) : Shows (updatePresentationValues data t) (some t) := by
  obtain ⟨hn, hl⟩ := h
  cases s with
  | deviceRisk nodes₀ edges₀ =>
    cases t with
    | communication nodes edges => exact absurd hkind (by simp [GraphSnapshot.graphKind])
    | deviceRisk nodes edges =>
      constructor
      · let relabel : String × GraphKind × Option (RiskNode X) × Option String → _ := fun f =>
          (f.1, f.2.1, lastWith RiskNode.entityId nodes f.1, f.2.2.2)
        have hnew : (updatePresentationValues data (.deviceRisk nodes edges : GraphSnapshot X Y Z)).nodes.map nodeFacts =
            (data.nodes.map nodeFacts).map relabel := by
          simp [updatePresentationValues, nodeFacts, relabel, Function.comp_def]
        have hold : (snapshotNodes (.deviceRisk nodes₀ edges₀ : GraphSnapshot X Y Z)).map relabel =
            (nodes₀.map RiskNode.entityId).map fun id => (id, GraphKind.risk, lastWith RiskNode.entityId nodes id, none) := by
          simp [snapshotNodes, relabel, Function.comp_def]
        rw [hnew]
        refine (hn.map relabel).trans (hold ▸ (hnodes.map _).trans (.of_eq ?_))
        simp only [GraphSnapshot.nodeIds, snapshotNodes, List.map_map]
        exact List.map_congr_left fun r hr => by simp [lastWith_of_nodup ht.distinct hr]
      · let relabel : (String × String) × GraphKind × Option (Edge Y) × Option (Edge Z) → _ := fun f =>
          (f.1, f.2.1, lastWith arrow edges (arrowText f.1), f.2.2.2)
        have hnew : (updatePresentationValues data (.deviceRisk nodes edges : GraphSnapshot X Y Z)).links.map linkFacts =
            (data.links.map linkFacts).map relabel := by
          simp [updatePresentationValues, linkFacts, relabel, arrowText, Function.comp_def]
        have hold : (snapshotLinks (.deviceRisk nodes₀ edges₀ : GraphSnapshot X Y Z)).map relabel =
            (edges₀.map fun e => (e.srcEntityId, e.dstEntityId)).map fun e =>
              (e, GraphKind.risk, lastWith arrow edges (arrowText e), none) := by
          simp [snapshotLinks, relabel, Function.comp_def]
        rw [hnew]
        refine (hl.map relabel).trans (hold ▸ (hends.map _).trans (.of_eq ?_))
        simp only [GraphSnapshot.ends, snapshotLinks, List.map_map]
        refine List.map_congr_left fun e he => ?_
        have hlast : lastWith arrow _ (arrow e) = some e := lastWith_of_nodup ht.arrows_nodup he
        rw [Function.comp_apply, show arrowText (e.srcEntityId, e.dstEntityId) = arrow e from rfl, hlast]
  | communication nodes₀ edges₀ =>
    cases t with
    | deviceRisk nodes edges => exact absurd hkind (by simp [GraphSnapshot.graphKind])
    | communication nodes edges =>
      constructor
      · exact hn.trans (hnodes.map _)
      · let relabel : (String × String) × GraphKind × Option (Edge Y) × Option (Edge Z) → _ := fun f =>
          (f.1, f.2.1, f.2.2.1, lastWith arrow edges (arrowText f.1))
        have hnew : (updatePresentationValues data (.communication nodes edges : GraphSnapshot X Y Z)).links.map linkFacts =
            (data.links.map linkFacts).map relabel := by
          simp [updatePresentationValues, linkFacts, relabel, arrowText, Function.comp_def]
        have hold : (snapshotLinks (.communication nodes₀ edges₀ : GraphSnapshot X Y Z)).map relabel =
            (edges₀.map fun e => (e.srcEntityId, e.dstEntityId)).map fun e =>
              (e, GraphKind.communication, none, lastWith arrow edges (arrowText e)) := by
          simp [snapshotLinks, relabel, Function.comp_def]
        rw [hnew]
        refine (hl.map relabel).trans (hold ▸ (hends.map _).trans (.of_eq ?_))
        simp only [GraphSnapshot.ends, snapshotLinks, List.map_map]
        refine List.map_congr_left fun e he => ?_
        have hlast : lastWith arrow _ (arrow e) = some e := lastWith_of_nodup ht.arrows_nodup he
        rw [Function.comp_apply, show arrowText (e.srcEntityId, e.dstEntityId) = arrow e from rfl, hlast]

/-! ## Render after render -/

/-- The layout moves nodes and resolves ends; it changes nothing that is shown. -/
structure Layout (X Y Z P : Type) where
  move : PresentationGraphData X Y Z P → PresentationGraphData X Y Z P
  nodes : ∀ data, (move data).nodes.map nodeFacts = data.nodes.map nodeFacts
  links : ∀ data, (move data).links.map linkFacts = data.links.map linkFacts

theorem Layout.shows (layout : Layout X Y Z P) {data : PresentationGraphData X Y Z P} {snapshot : Option (GraphSnapshot X Y Z)}
    (h : Shows data snapshot) : Shows (layout.move data) snapshot := by
  cases snapshot with
  | none =>
    have hn := layout.nodes data
    have hl := layout.links data
    rw [h.1, List.map_nil, List.map_eq_nil_iff] at hn
    rw [h.2, List.map_nil, List.map_eq_nil_iff] at hl
    exact ⟨hn, hl⟩
  | some s => exact ⟨layout.nodes data ▸ h.1, layout.links data ▸ h.2⟩

/-- A render, and what the layout does until the next one. -/
def render (cache : Option (Cache X Y Z P)) (turn : Option (GraphSnapshot X Y Z) × Layout X Y Z P) :
    Option (Cache X Y Z P) :=
  let shown := useStableGraph cache turn.1
  some { shown with data := turn.2.move shown.data }

def renders (turns : List (Option (GraphSnapshot X Y Z) × Layout X Y Z P)) : Option (Cache X Y Z P) :=
  turns.foldl (render) none

/-- The cache shows a plain snapshot and keeps its topology. -/
def Current (cache : Cache X Y Z P) (snapshot : Option (GraphSnapshot X Y Z)) : Prop :=
  (∀ s ∈ snapshot, PlainSnapshot s) ∧ cache.topology = topologyKey snapshot ∧ Shows cache.data snapshot

theorem topologyKey_none {s : GraphSnapshot X Y Z} :
    topologyKey (none : Option (GraphSnapshot X Y Z)) ≠ topologyKey (some s) := by
  intro h
  have hlist := congrArg (List.head? ∘ String.toList) h
  cases s <;> simp [topologyKey, GraphSnapshot.graphKind, String.toList_append] at hlist

/-- Whether it rebuilds or updates, a render shows its snapshot. -/
theorem stable_current {cache : Option (Cache X Y Z P)} {earlier snapshot : Option (GraphSnapshot X Y Z)}
    (h : ∀ c ∈ cache, Current c earlier) (hplain : ∀ s ∈ snapshot, PlainSnapshot s) :
    Current (useStableGraph cache snapshot) snapshot := by
  cases cache with
  | none => exact ⟨hplain, rfl, build_shows _ _⟩
  | some c =>
    obtain ⟨hearlier, htopology, hshows⟩ := h c rfl
    unfold useStableGraph
    by_cases hsame : c.topology = topologyKey snapshot
    · simp only [hsame, ne_eq, not_true_eq_false, if_false]
      have hkey := htopology.symm.trans hsame
      cases snapshot with
      | none =>
        cases earlier with
        | none => exact ⟨hplain, htopology, hshows⟩
        | some s => exact absurd hkey.symm topologyKey_none
      | some t =>
        cases earlier with
        | none => exact absurd hkey topologyKey_none
        | some s =>
          obtain ⟨hkind, hnodes, hends⟩ := topologyKey_same (hearlier s rfl) (hplain t rfl) hkey
          exact ⟨hplain, rfl, update_shows (hplain t rfl) hkind hnodes hends hshows⟩
    · simp only [hsame, ne_eq, not_false_eq_true, if_true]
      exact ⟨hplain, rfl, build_shows _ _⟩

theorem renders_current {turns : List (Option (GraphSnapshot X Y Z) × Layout X Y Z P)}
    (hplain : ∀ turn ∈ turns, ∀ s ∈ turn.1, PlainSnapshot s) (cache : Cache X Y Z P) (h : cache ∈ renders turns) :
    ∃ turn ∈ turns.getLast?, Current cache turn.1 := by
  induction turns using List.reverseRecOn generalizing cache with
  | nil => cases h
  | append_singleton turns turn ih =>
    rw [List.getLast?_concat]
    refine ⟨turn, rfl, ?_⟩
    rw [renders, List.foldl_append] at h
    cases h
    have hbefore := fun t ht => hplain t (List.mem_append_left _ ht)
    have hcurrent : Current (useStableGraph (renders turns) turn.1) turn.1 := by
      cases hlast : turns.getLast? with
      | none =>
        rw [List.getLast?_eq_none_iff] at hlast
        subst hlast
        have hempty : ∀ c ∈ (none : Option (Cache X Y Z P)), Current c none := fun c hc => nomatch hc
        exact stable_current hempty (hplain turn (by simp))
      | some last =>
        have hearlier : ∀ c ∈ renders turns, Current c last.1 := by
          intro c hc
          obtain ⟨turn', hturn', hc'⟩ := ih hbefore c hc
          rw [hlast] at hturn'
          cases hturn'
          exact hc'
        exact stable_current hearlier (hplain turn (by simp))
    exact ⟨hcurrent.1, hcurrent.2.1, turn.2.shows hcurrent.2.2⟩

/-- After any renders the screen shows the last snapshot: replacing values in place and
building anew come to the same. -/
theorem screen_shows_last {turns : List (Option (GraphSnapshot X Y Z) × Layout X Y Z P)}
    (hplain : ∀ turn ∈ turns, ∀ s ∈ turn.1, PlainSnapshot s) (snapshot : Option (GraphSnapshot X Y Z))
    (layout : Layout X Y Z P) (hlast : ∀ s ∈ snapshot, PlainSnapshot s) :
    ∃ cache, renders (turns ++ [(snapshot, layout)]) = some cache ∧ Shows cache.data snapshot := by
  cases hcache : renders (turns ++ [(snapshot, layout)]) with
  | none =>
    rw [renders, List.foldl_append] at hcache
    cases hcache
  | some cache =>
    obtain ⟨turn, hturn, -, -, hshows⟩ := renders_current (fun t ht => by
      rcases List.mem_append.mp ht with ht | ht
      · exact hplain t ht
      · rw [List.mem_singleton.mp ht]
        exact hlast) cache hcache
    rw [List.getLast?_concat] at hturn
    cases hturn
    exact ⟨cache, rfl, hshows⟩

/-- Two devices that talk. -/
def twoDevices (packets : Nat) : GraphSnapshot Unit Unit Nat :=
  .communication ["hub", "lamp"] [⟨"hub", "lamp", packets⟩]

theorem twoDevices_plain (packets : Nat) : PlainSnapshot (twoDevices packets) := by
  have hub : Plain "hub" := ⟨by decide, by decide, by decide, by decide, by decide⟩
  have lamp : Plain "lamp" := ⟨by decide, by decide, by decide, by decide, by decide⟩
  refine ⟨fun id hid => ?_, fun e he => ?_, by simp [twoDevices, GraphSnapshot.nodeIds], List.nodup_singleton _⟩
  · simp only [twoDevices, GraphSnapshot.nodeIds, List.mem_cons, List.not_mem_nil, or_false] at hid
    rcases hid with rfl | rfl
    · exact hub
    · exact lamp
  · rw [List.mem_singleton.mp he]
    exact ⟨hub, lamp⟩

def stillLayout : Layout Unit Unit Nat Unit := ⟨id, fun _ => rfl, fun _ => rfl⟩

theorem screen_shows_packets :
    ∃ cache, renders ([(some (twoDevices 1), stillLayout)] ++ [(some (twoDevices 5), stillLayout)]) = some cache ∧
      Shows cache.data (some (twoDevices 5)) :=
  screen_shows_last (fun turn hturn s hs => by
    rw [List.mem_singleton.mp hturn] at hs
    cases hs
    exact twoDevices_plain 1) (some (twoDevices 5)) stillLayout fun s hs => by
      cases hs
      exact twoDevices_plain 5

end PresentationGraph
