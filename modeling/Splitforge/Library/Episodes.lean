import Mathlib.Data.List.Basic
import Mathlib.Data.List.Induction
import Mathlib.Data.List.Nodup
import Mathlib.Order.Basic

/-!
# Episodes in a log of edges

A log of opening and closing edges, numbered from one, in which a closing edge names the number of
the opening edge it ends. Where every edge extends what stands before it, the edges of each key
alternate, and joining openings to the closings that name them gives each opening the next edge of
its key.
-/

namespace Splitforge.Library

variable {Edge Key Mark : Type} [DecidableEq Key]

/-- What an edge says: whose it is, whether it opens, its number, the number it closes, and the
mark a closing edge takes over from its opening edge. -/
structure EdgeView (Edge Key Mark : Type) where
  key : Edge → Key
  opens : Edge → Bool
  number : Edge → Nat
  closes : Edge → Option Nat
  mark : Edge → Mark

variable (view : EdgeView Edge Key Mark)

/-- The edges of a key. -/
def edgesOf (wanted : Key) (log : List Edge) : List Edge :=
  log.filter fun edge => view.key edge = wanted

/-- The last edge of a key. -/
def lastEdge (wanted : Key) (log : List Edge) : Option Edge := (edgesOf view wanted log).getLast?

/-- An edge follows a log: it has the next number; an opening edge follows no open episode of its
key; and a closing edge ends the open one, and takes over its mark. -/
structure Extends (log : List Edge) (edge : Edge) : Prop where
  number : view.number edge = log.length + 1
  opened : view.opens edge = true → view.closes edge = none ∧
    ∀ last, lastEdge view (view.key edge) log = some last → view.opens last = false
  closed : view.opens edge = false → ∃ last, lastEdge view (view.key edge) log = some last ∧
    view.opens last = true ∧ view.closes edge = some (view.number last) ∧
    view.mark edge = view.mark last

/-- Every edge extends what stands before it. -/
def Paired (log : List Edge) : Prop :=
  ∀ before edge after, log = before ++ edge :: after → Extends view before edge

/-- Whether the edge at a place opens, where edges alternate. -/
def opensAt (place : Nat) : Bool := place % 2 = 0

/-- Every opening edge with the next edge of its key, if there is one. -/
def episodes : List Edge → List (Edge × Option Edge)
  | [] => []
  | edge :: log =>
      if view.opens edge then
        (edge, log.find? fun other => view.key other = view.key edge) :: episodes log
      else episodes log

/-- Every opening edge with the closing edges that name it, and once with nothing if there are
none: a left join of the log with itself. -/
def joined (log : List Edge) : List (Edge × Option Edge) :=
  (log.filter view.opens).flatMap fun opened =>
    match log.filter fun edge => view.closes edge = some (view.number opened) with
    | [] => [(opened, none)]
    | closing => closing.map fun closed => (opened, some closed)

variable {view} {log : List Edge}

@[simp]
theorem edges_of_append (wanted : Key) (first second : List Edge) :
    edgesOf view wanted (first ++ second) =
      edgesOf view wanted first ++ edgesOf view wanted second :=
  List.filter_append ..

theorem edges_of_singleton (wanted : Key) (edge : Edge) :
    edgesOf view wanted [edge] = if view.key edge = wanted then [edge] else [] := by
  rw [edgesOf]
  by_cases hkey : view.key edge = wanted <;> simp [hkey]

theorem mem_of_last_edge {wanted : Key} {edge : Edge} (h : lastEdge view wanted log = some edge) :
    edge ∈ log ∧ view.key edge = wanted := by
  have hmem := List.mem_of_getLast? h
  rw [edgesOf, List.mem_filter, decide_eq_true_eq] at hmem
  exact hmem

/-! ## Growing a log -/

theorem paired_nil : Paired view [] := fun before edge after h => by cases before <;> cases h

/-- What stands at the end of a longer list stands in front of its last element, or is it. -/
theorem snoc_eq_append_cons {log before after : List Edge} {last edge : Edge}
    (h : log ++ [last] = before ++ edge :: after) :
    (after = [] ∧ before = log ∧ edge = last) ∨
      ∃ rest, after = rest ++ [last] ∧ log = before ++ edge :: rest := by
  rcases List.eq_nil_or_concat' after with rfl | ⟨rest, other, rfl⟩
  · obtain ⟨hlog, hlast⟩ := List.append_inj' h rfl
    cases hlast
    exact Or.inl ⟨rfl, hlog.symm, rfl⟩
  · rw [← List.cons_append, ← List.append_assoc] at h
    obtain ⟨hlog, hlast⟩ := List.append_inj' h rfl
    cases hlast
    exact Or.inr ⟨rest, rfl, hlog⟩

/-- A paired log stays paired under an edge that extends it. -/
theorem Paired.snoc (h : Paired view log) {edge : Edge} (hedge : Extends view log edge) :
    Paired view (log ++ [edge]) := by
  intro before other after heq
  rcases snoc_eq_append_cons heq with ⟨_, rfl, rfl⟩ | ⟨rest, _, rfl⟩
  · exact hedge
  · exact h before other rest rfl

theorem Paired.of_append {more : List Edge} (h : Paired view (log ++ more)) : Paired view log := by
  rintro before edge after rfl
  exact h before edge (after ++ more) (by rw [List.append_assoc, List.cons_append])

theorem Paired.last {edge : Edge} (h : Paired view (log ++ [edge])) : Extends view log edge :=
  h log edge [] rfl

/-! ## Numbers -/

/-- Numbers go up by one from one. -/
theorem Paired.numbers (h : Paired view log) :
    log.map view.number = List.range' 1 log.length := by
  induction log using List.reverseRecOn with
  | nil => rfl
  | append_singleton log edge ih =>
      rw [List.map_append, List.map_singleton, ih h.of_append, List.length_append,
        List.length_singleton, List.range'_concat, h.last.number]
      simp [Nat.add_comm]

theorem Paired.number_le (h : Paired view log) {edge : Edge} (hedge : edge ∈ log) :
    view.number edge ≤ log.length := by
  have hmem : view.number edge ∈ log.map view.number := List.mem_map_of_mem hedge
  rw [h.numbers, List.mem_range'_1] at hmem
  omega

/-- A number belongs to one edge. -/
theorem Paired.eq_of_number (h : Paired view log) {first second : Edge} (hfirst : first ∈ log)
    (hsecond : second ∈ log) (heq : view.number first = view.number second) : first = second :=
  List.inj_on_of_nodup_map (h.numbers ▸ List.nodup_range') hfirst hsecond heq

/-- What an edge closes is the last edge of its key, which opened. -/
theorem Extends.closes_last {edge : Edge} (h : Extends view log edge) {number : Nat}
    (hcloses : view.closes edge = some number) : ∃ last,
      lastEdge view (view.key edge) log = some last ∧ view.opens last = true ∧
        view.number last = number := by
  cases hopens : view.opens edge with
  | true =>
      rw [(h.opened hopens).1] at hcloses
      cases hcloses
  | false =>
      obtain ⟨last, hlast, hopened, hcloses', _⟩ := h.closed hopens
      rw [hcloses'] at hcloses
      exact ⟨last, hlast, hopened, Option.some.inj hcloses⟩

/-- An edge closes the last edge of its key, where that opened. -/
theorem Extends.closes_of_open {edge last : Edge} (h : Extends view log edge)
    (hlast : lastEdge view (view.key edge) log = some last) (hopened : view.opens last = true) :
    view.closes edge = some (view.number last) := by
  cases hopens : view.opens edge with
  | true =>
      rw [(h.opened hopens).2 last hlast] at hopened
      cases hopened
  | false =>
      obtain ⟨other, hother, _, hcloses, _⟩ := h.closed hopens
      cases hlast.symm.trans hother
      exact hcloses

/-- What an edge closes stands before it. -/
theorem Paired.closes_le (h : Paired view log) {edge : Edge} (hedge : edge ∈ log) {number : Nat}
    (hcloses : view.closes edge = some number) : number ≤ log.length := by
  obtain ⟨before, after, rfl⟩ := List.append_of_mem hedge
  obtain ⟨last, hlast, _, rfl⟩ := (h before edge after rfl).closes_last hcloses
  have hle := h.of_append.number_le (mem_of_last_edge hlast).1
  rw [List.length_append]
  omega

/-! ## Alternation -/

/-- The edges of a key alternate, an opening edge first. -/
theorem Paired.alternate (h : Paired view log) (wanted : Key) :
    (edgesOf view wanted log).map view.opens =
      (List.range (edgesOf view wanted log).length).map opensAt := by
  induction log using List.reverseRecOn with
  | nil => rfl
  | append_singleton log edge ih =>
      have hlog := ih h.of_append
      rw [edges_of_append, edges_of_singleton]
      by_cases hkey : view.key edge = wanted
      · rw [if_pos hkey, List.map_append, List.map_singleton, List.length_append,
          List.length_singleton, List.range_succ, List.map_append, List.map_singleton, hlog]
        congr 2
        -- the edge before, if there is one, is the other way round
        have hbefore : ∀ last, lastEdge view wanted log = some last →
            view.opens last = opensAt ((edgesOf view wanted log).length - 1) := by
          intro last hlast
          have hopens := congrArg List.getLast? hlog
          rw [List.getLast?_map, List.getLast?_map, List.getLast?_range,
            show (edgesOf view wanted log).getLast? = some last from hlast] at hopens
          split_ifs at hopens
          · cases hopens
          · exact Option.some.inj hopens
        subst hkey
        cases hopens : view.opens edge with
        | true =>
            cases hlast : lastEdge view (view.key edge) log with
            | none =>
                have hnone := List.getLast?_eq_none_iff.mp hlast
                rw [hnone]
                rfl
            | some last =>
                have hclosed := (h.last.opened hopens).2 last hlast
                rw [hbefore last hlast, opensAt, decide_eq_false_iff_not] at hclosed
                rw [opensAt, eq_comm, decide_eq_true_eq]
                omega
        | false =>
            obtain ⟨last, hlast, hopened, _⟩ := h.last.closed hopens
            rw [hbefore last hlast, opensAt, decide_eq_true_eq] at hopened
            have hpos : (edgesOf view (view.key edge) log).length ≠ 0 := by
              intro hzero
              rw [lastEdge, List.length_eq_zero_iff.mp hzero] at hlast
              cases hlast
            rw [opensAt, eq_comm, decide_eq_false_iff_not]
            omega
      · rw [if_neg hkey, List.append_nil]
        exact hlog

/-! ## Closings -/

/-- What an edge of a paired log closes is an opening edge of its key. -/
theorem Paired.opening (h : Paired view log) {edge : Edge} (hedge : edge ∈ log) {number : Nat}
    (hcloses : view.closes edge = some number) : ∃ opened ∈ log, view.opens opened = true ∧
      view.key opened = view.key edge ∧ view.number opened = number := by
  obtain ⟨before, after, rfl⟩ := List.append_of_mem hedge
  obtain ⟨last, hlast, hopened, hnumber⟩ := (h before edge after rfl).closes_last hcloses
  obtain ⟨hmem, hkey⟩ := mem_of_last_edge hlast
  exact ⟨last, List.mem_append_left _ hmem, hopened, hkey, hnumber⟩

/-- An opening edge with no edge of its key behind it is the last of its key. -/
theorem last_edge_of_find_none {before after : List Edge} {edge : Edge}
    (h : after.find? (fun other => view.key other = view.key edge) = none) :
    lastEdge view (view.key edge) (before ++ edge :: after) = some edge := by
  have hnone : edgesOf view (view.key edge) after = [] := by
    rw [edgesOf, List.filter_eq_nil_iff]
    exact List.find?_eq_none.mp h
  rw [lastEdge, edges_of_append, ← List.singleton_append, edges_of_append, hnone,
    edges_of_singleton, if_pos rfl, List.append_nil, List.getLast?_concat]

/-- An edge with another of its key behind it is not the last of its key. -/
theorem Paired.find_none_of_last {before after : List Edge} {edge : Edge}
    (h : Paired view (before ++ edge :: after))
    (hlast : lastEdge view (view.key edge) (before ++ edge :: after) = some edge) :
    after.find? (fun other => view.key other = view.key edge) = none := by
  rw [List.find?_eq_none]
  intro other hother hkey
  have hmem : other ∈ edgesOf view (view.key edge) after := List.mem_filter.mpr ⟨hother, hkey⟩
  have hne : edgesOf view (view.key edge) after ≠ [] := List.ne_nil_of_mem hmem
  obtain ⟨front, last, hfront⟩ := (List.eq_nil_or_concat' _).resolve_left hne
  -- the last edge of the key stands behind this one, so it has another number
  have hsame : last = edge := by
    rw [lastEdge, edges_of_append, ← List.singleton_append, edges_of_append, hfront,
      ← List.append_assoc, ← List.append_assoc, List.getLast?_concat] at hlast
    exact Option.some.inj hlast
  have hafter : edge ∈ after := by
    have hlast' : last ∈ edgesOf view (view.key edge) after := by
      rw [hfront]
      exact List.mem_append_right _ (List.mem_singleton_self _)
    rw [← hsame]
    exact (List.mem_filter.mp hlast').1
  have hnodup : ((before ++ edge :: after).map view.number).Nodup := by
    rw [h.numbers]
    exact List.nodup_range'
  rw [List.map_append, List.map_cons] at hnodup
  exact (List.nodup_cons.mp hnodup.of_append_right).1 (List.mem_map_of_mem hafter)

/-- The edges that close an opening edge are the next edge of its key. -/
theorem Paired.closing (h : Paired view log) {before after : List Edge} {edge : Edge}
    (heq : log = before ++ edge :: after) (hopens : view.opens edge = true) :
    log.filter (fun other => view.closes other = some (view.number edge)) =
      (after.find? fun other => view.key other = view.key edge).toList := by
  induction log using List.reverseRecOn generalizing before edge after with
  | nil => cases before <;> cases heq
  | append_singleton log last ih =>
      have hlog := h.of_append
      rcases snoc_eq_append_cons heq with ⟨rfl, rfl, rfl⟩ | ⟨rest, rfl, hsplit⟩
      · -- nothing closes an edge that has just been written
        rw [List.find?_nil, Option.toList_none, List.filter_eq_nil_iff]
        intro other hother hcloses
        rw [decide_eq_true_eq] at hcloses
        rcases List.mem_append.mp hother with hold | hnew
        · have hle := hlog.closes_le hold hcloses
          rw [h.last.number] at hle
          omega
        · rw [List.mem_singleton.mp hnew, (h.last.opened hopens).1] at hcloses
          cases hcloses
      · have hedge : edge ∈ log := by rw [hsplit]; simp
        rw [List.filter_append, ih hlog hsplit hopens, List.find?_append]
        cases hfind : rest.find? fun other => view.key other = view.key edge with
        | some closed =>
            -- the episode is over, so the last edge closes another
            have hother : ¬ view.closes last = some (view.number edge) := by
              intro hcloses
              obtain ⟨opened, hlast, _, hnumber⟩ := h.last.closes_last hcloses
              obtain ⟨hmem, hkey⟩ := mem_of_last_edge hlast
              have hsame := hlog.eq_of_number hmem hedge hnumber
              subst hsame
              rw [← hkey, hsplit] at hlast
              rw [hsplit] at hlog
              rw [hlog.find_none_of_last hlast] at hfind
              cases hfind
            simp [hother]
        | none =>
            have hopen := @last_edge_of_find_none _ _ _ _ view before rest edge hfind
            rw [← hsplit] at hopen
            by_cases hkey : view.key last = view.key edge
            · -- the last edge is the next of this key, so it closes
              have hcloses := h.last.closes_of_open (hkey ▸ hopen) hopens
              simp [hcloses, hkey]
            · have hother : ¬ view.closes last = some (view.number edge) := by
                intro hcloses
                obtain ⟨opened, hmem, _, hkey', hnumber⟩ :=
                  h.opening (List.mem_append_right _ (List.mem_singleton_self _)) hcloses
                have hsame := h.eq_of_number hmem (List.mem_append_left _ hedge) hnumber
                rw [hsame] at hkey'
                exact hkey hkey'.symm
              simp [hother, hkey]

/-- An edge that closes finds the edge it closes closed by none before it. -/
theorem Paired.closes_once {before after : List Edge} {edge : Edge}
    (h : Paired view (before ++ edge :: after)) {last : Edge}
    (hlast : lastEdge view (view.key edge) before = some last) (hopens : view.opens last = true) :
    ∀ other ∈ before, view.closes other ≠ some (view.number last) := by
  intro other hother hcloses
  have hbefore := h.of_append
  obtain ⟨hmem, hkey⟩ := mem_of_last_edge hlast
  obtain ⟨front, rest, hsplit⟩ := List.append_of_mem hmem
  have hnone : rest.find? (fun other => view.key other = view.key last) = none := by
    refine Paired.find_none_of_last (hsplit ▸ hbefore) ?_
    rw [← hsplit, hkey]
    exact hlast
  have hclosing := hbefore.closing hsplit hopens
  rw [hnone, Option.toList_none, List.filter_eq_nil_iff] at hclosing
  exact hclosing other hother (decide_eq_true hcloses)

/-- What an edge that extends a log closes stands in the log, and nothing there closes it. -/
theorem Paired.closes_fresh (h : Paired view log) {edge : Edge} (hedge : Extends view log edge)
    {number : Nat} (hcloses : view.closes edge = some number) :
    (∃ opened ∈ log, view.number opened = number) ∧
      ∀ other ∈ log, view.closes other ≠ some number := by
  obtain ⟨last, hlast, hopened, rfl⟩ := hedge.closes_last hcloses
  exact ⟨⟨last, (mem_of_last_edge hlast).1, rfl⟩, (h.snoc hedge).closes_once hlast hopened⟩

/-! ## Episodes -/

/-- Joining the openings to the edges that close them gives each opening the next edge of its
key. -/
theorem Paired.joined_eq (h : Paired view log) : joined view log = episodes view log := by
  have hsuffix : ∀ before rest : List Edge, log = before ++ rest →
      ((rest.filter view.opens).flatMap fun opened =>
        match log.filter fun edge => view.closes edge = some (view.number opened) with
        | [] => [(opened, none)]
        | closing => closing.map fun closed => (opened, some closed)) = episodes view rest := by
    intro before rest
    induction rest generalizing before with
    | nil => exact fun _ => rfl
    | cons edge rest ih =>
        intro heq
        have hrest := ih (before ++ [edge]) (by rw [heq, List.append_assoc, List.singleton_append])
        rw [episodes]
        cases hopens : view.opens edge with
        | false =>
            rw [List.filter_cons_of_neg (by simp [hopens]), hrest, if_neg Bool.false_ne_true]
        | true =>
            rw [List.filter_cons_of_pos hopens, List.flatMap_cons, hrest, if_pos rfl,
              h.closing heq hopens]
            cases rest.find? fun other => view.key other = view.key edge <;> rfl
  exact hsuffix [] log rfl

theorem last_edge_cons (wanted : Key) (edge : Edge) (log : List Edge) :
    lastEdge view wanted (edge :: log) =
      (lastEdge view wanted log).or (if view.key edge = wanted then some edge else none) := by
  rw [lastEdge, lastEdge, ← List.singleton_append, edges_of_append, edges_of_singleton,
    List.getLast?_append]
  split_ifs <;> rfl

theorem last_edge_eq_none_iff {wanted : Key} :
    lastEdge view wanted log = none ↔ log.find? (fun edge => view.key edge = wanted) = none := by
  rw [lastEdge, List.getLast?_eq_none_iff, edgesOf, List.filter_eq_nil_iff, List.find?_eq_none]

theorem length_episodes (log : List Edge) :
    (episodes view log).length = log.countP view.opens := by
  induction log with
  | nil => rfl
  | cons edge log ih =>
      rw [episodes, List.countP_cons]
      split_ifs
      · rw [List.length_cons, ih]
      · rw [ih, Nat.add_zero]

/-- One more edge ends the open episode of its key, and begins an episode if it opens. -/
theorem episodes_append_singleton (log : List Edge) (edge : Edge) :
    episodes view (log ++ [edge]) =
      (episodes view log).map (fun episode =>
        (episode.1, episode.2.or
          (if view.key edge = view.key episode.1 then some edge else none))) ++
      if view.opens edge then [(edge, none)] else [] := by
  induction log with
  | nil => cases hopens : view.opens edge <;> simp [episodes, hopens]
  | cons first log ih =>
      rw [List.cons_append, episodes, episodes, ih]
      cases hopens : view.opens first with
      | false => simp only [Bool.false_eq_true, if_false]
      | true =>
          have hfind : (log ++ [edge]).find? (fun other => view.key other = view.key first) =
              (log.find? fun other => view.key other = view.key first).or
                (if view.key edge = view.key first then some edge else none) := by
            rw [List.find?_append]
            by_cases hkey : view.key edge = view.key first <;> simp [hkey]
          simp only [if_true, List.map_cons, List.cons_append, hfind]

/-- The open episode of a key is that of its last edge, if that one opens. -/
theorem open_episodes (wanted : Key) (log : List Edge) :
    (episodes view log).filter (fun episode => view.key episode.1 = wanted ∧ episode.2.isNone) =
      match lastEdge view wanted log with
      | some last => if view.opens last then [(last, none)] else []
      | none => [] := by
  induction log with
  | nil => rfl
  | cons edge log ih =>
      rw [episodes, last_edge_cons]
      cases hlast : lastEdge view wanted log with
      | some last =>
          -- an episode of this key that opens here is over
          rw [hlast] at ih
          rw [Option.some_or]
          cases hopens : view.opens edge with
          | false => rw [if_neg Bool.false_ne_true, ih]
          | true =>
              have hover : ¬ (view.key edge = wanted ∧
                  (log.find? fun other => view.key other = view.key edge).isNone) := by
                intro hopen
                have hnone := last_edge_eq_none_iff.mpr (Option.isNone_iff_eq_none.mp hopen.2)
                rw [hopen.1, hlast] at hnone
                cases hnone
              rw [if_pos rfl, List.filter_cons_of_neg (by simpa using hover), ih]
      | none =>
          rw [hlast] at ih
          rw [Option.none_or]
          by_cases hkey : view.key edge = wanted
          · have hfind : log.find? (fun other => view.key other = view.key edge) = none := by
              rw [hkey]
              exact last_edge_eq_none_iff.mp hlast
            rw [if_pos hkey]
            cases hopens : view.opens edge with
            | false =>
                rw [if_neg Bool.false_ne_true, ih]
                simp only [hopens, Bool.false_eq_true, if_false]
            | true =>
                rw [if_pos rfl, hfind, List.filter_cons_of_pos (by simp [hkey]), ih]
                simp only [hopens, if_true]
          · rw [if_neg hkey]
            cases hopens : view.opens edge with
            | false => rw [if_neg Bool.false_ne_true, ih]
            | true => rw [if_pos rfl, List.filter_cons_of_neg (by simp [hkey]), ih]

/-! ## Episodes in time -/

section Time

variable {Time : Type} [Preorder Time] (time : Edge → Time)

/-- The edges of a key stand in the order of their times. -/
def Timely (view : EdgeView Edge Key Mark) (log : List Edge) : Prop :=
  log.Pairwise fun earlier later => view.key earlier = view.key later → time earlier ≤ time later

variable {time}

omit [DecidableEq Key] in
/-- A log stays in order under an edge no earlier than those of its key. -/
theorem Timely.snoc (h : Timely time view log) {edge : Edge}
    (hedge : ∀ other ∈ log, view.key other = view.key edge → time other ≤ time edge) :
    Timely time view (log ++ [edge]) := by
  refine List.pairwise_append.mpr ⟨h, List.pairwise_singleton _ _, ?_⟩
  intro other hother last hlast hkey
  rw [List.mem_singleton.mp hlast] at hkey ⊢
  exact hedge other hother hkey

/-- An episode begins with an edge of the log. -/
theorem mem_of_mem_episodes {episode : Edge × Option Edge} (h : episode ∈ episodes view log) :
    episode.1 ∈ log := by
  induction log with
  | nil => cases h
  | cons edge log ih =>
      rw [episodes] at h
      split_ifs at h with hopens
      · rcases List.mem_cons.mp h with rfl | hmem
        · exact List.mem_cons_self
        · exact List.mem_cons_of_mem _ (ih hmem)
      · exact List.mem_cons_of_mem _ (ih h)

/-- The first edge of a key is no later than any other of the key. -/
theorem Timely.find_le (h : Timely time view log) {wanted : Key} {first other : Edge}
    (hfirst : log.find? (fun edge => view.key edge = wanted) = some first) (hother : other ∈ log)
    (hkey : view.key other = wanted) : time first ≤ time other := by
  induction log with
  | nil => cases hother
  | cons edge log ih =>
      obtain ⟨hedge, hlog⟩ := List.pairwise_cons.mp h
      by_cases hmine : view.key edge = wanted
      · rw [List.find?_cons_of_pos (by simpa using hmine)] at hfirst
        cases hfirst
        rcases List.mem_cons.mp hother with rfl | hmem
        · exact le_rfl
        · exact hedge other hmem (hmine.trans hkey.symm)
      · rw [List.find?_cons_of_neg (by simpa using hmine)] at hfirst
        rcases List.mem_cons.mp hother with rfl | hmem
        · exact absurd hkey hmine
        · exact ih hlog hfirst hmem

/-- No episode ends before it begins. -/
theorem Timely.ends (h : Timely time view log) : ∀ episode ∈ episodes view log,
    ∀ closed ∈ episode.2, time episode.1 ≤ time closed := by
  induction log with
  | nil =>
      intro episode hepisode
      cases hepisode
  | cons edge log ih =>
      obtain ⟨hedge, hlog⟩ := List.pairwise_cons.mp h
      intro episode hepisode closed hclosed
      rw [episodes] at hepisode
      split_ifs at hepisode with hopens
      · rcases List.mem_cons.mp hepisode with rfl | hmem
        · have hkey := List.find?_some hclosed
          rw [decide_eq_true_eq] at hkey
          exact hedge closed (List.mem_of_find?_eq_some hclosed) hkey.symm
        · exact ih hlog episode hmem closed hclosed
      · exact ih hlog episode hepisode closed hclosed

/-- An episode ends no later than any later one of its key begins. -/
theorem Timely.apart (h : Timely time view log) :
    (episodes view log).Pairwise fun earlier later => view.key earlier.1 = view.key later.1 →
      ∀ closed ∈ earlier.2, time closed ≤ time later.1 := by
  induction log with
  | nil => exact List.Pairwise.nil
  | cons edge log ih =>
      obtain ⟨_, hlog⟩ := List.pairwise_cons.mp h
      rw [episodes]
      split_ifs with hopens
      · refine List.pairwise_cons.mpr ⟨?_, ih hlog⟩
        -- the next edge of the key is the later episode's first, or stands in front of it
        intro later hlater hkey closed hclosed
        exact Timely.find_le hlog hclosed (mem_of_mem_episodes hlater) hkey.symm
      · exact ih hlog

end Time

end Splitforge.Library
