import PackPlan.Proofs.Yaml.Layout
import PackPlan.Yaml.Tree

/-!
# PackPlan.Proofs.Yaml.Tree

The tree of a document. `Lines.Shows` says which members of a mapping are those of the lines, wherever
they stand in the text. The tokens of a content are read as a node that shows it, whatever follows
(`Content.exists_node`), so the text of a document is read as a mapping of its lines (`Lines.parse?`),
unless one of its keys is too long for a key (`Lines.parse?_eq_none`).
-/

namespace PackPlan
namespace Yaml

/-! ## Nodes -/

def Word.IsNode (w : Word) (n : Node) : Prop := ∃ m, n = .scalar m ⟨none, .plain, w.text⟩

mutual

/-- The node is that of the content. -/
def Content.Shows : Content → Node → Prop
  | .word w, n => w.IsNode n
  | .words _ ws, n => ∃ m nodes, n = .sequence m nodes ∧ List.Forall₂ Word.IsNode ws nodes
  | .lines _ ls, n => ∃ m pairs, n = .mapping m pairs ∧ ls.Shows pairs

/-- The members are those of the lines. -/
def Lines.Shows : Lines → List (Node × Node) → Prop
  | .one key content, pairs => ∃ k v, pairs = [(k, v)] ∧ key.IsNode k ∧ content.Shows v
  | .cons key content others, pairs => ∃ k v rest, pairs = (k, v) :: rest ∧
      key.IsNode k ∧ content.Shows v ∧ others.Shows rest

end

/-! ## Reading tokens -/

section Reading

variable {block indentless : Bool} {fuel : Nat} {p : Placed} {ts ps rest : List Placed} {a : Anchors}
  {handles : List (List Char × List Char)}

theorem node?_word {w : Word} (hp : p.token = w.token) :
    ∃ n, w.IsNode n ∧ ∀ block indentless fuel ts a handles,
      node? block indentless (fuel + 1) ⟨p :: ts, a, handles⟩ = some (n, ⟨ts, a, handles⟩) := by
  obtain ⟨token, start, stop⟩ := p
  obtain rfl : token = w.token := hp
  exact ⟨_, ⟨start, rfl⟩, fun _ _ _ _ _ _ => rfl⟩

theorem node?_flow (hp : p.token = .flowSequenceStart) :
    node? block indentless (fuel + 1) ⟨p :: ts, a, handles⟩ =
      (flowItems? fuel true ⟨ts, a, handles⟩).map fun (items, s) => (.sequence p.start items, s) := by
  obtain ⟨token, start, stop⟩ := p
  obtain rfl : token = .flowSequenceStart := hp
  rw [node?]
  simp only [properties?, startNode, finishNode, Stream.next?, Stream.drop, Stream.mark,
    List.head?_cons, Option.map_some, Option.map_map, Option.getD_some, List.drop_succ_cons,
    List.drop_zero]
  rfl

theorem node?_block (hp : p.token = .blockMappingStart) :
    node? true indentless (fuel + 1) ⟨p :: ts, a, handles⟩ =
      (blockMembers? fuel ⟨ts, a, handles⟩).map fun (members, s) => (.mapping p.start members, s) := by
  obtain ⟨token, start, stop⟩ := p
  obtain rfl : token = .blockMappingStart := hp
  rw [node?]
  have hentry : (some Token.blockMappingStart == some Token.blockEntry) = false := rfl
  have hsequence : (some Token.blockMappingStart == some Token.blockSequenceStart) = false := rfl
  simp only [properties?, startNode, finishNode, Stream.next?, Stream.drop, Stream.mark,
    List.head?_cons, Option.map_some, Option.map_map, Option.getD_some, List.drop_succ_cons,
    List.drop_zero, hentry, hsequence, beq_self_eq_true, Bool.and_false, Bool.and_true,
    Bool.false_eq_true, if_false, if_true]
  rfl

/-- A comma before an item is passed over. -/
theorem flowItems?_comma (hp : p.token = .flowEntry) :
    flowItems? (fuel + 1) false ⟨p :: ts, a, handles⟩ = flowItems? (fuel + 1) true ⟨ts, a, handles⟩ := by
  obtain ⟨token, start, stop⟩ := p
  obtain rfl : token = .flowEntry := hp
  rfl

theorem flowItems?_end (first : Bool) (hp : p.token = .flowSequenceEnd) :
    flowItems? (fuel + 1) first ⟨p :: ts, a, handles⟩ = some ([], ⟨ts, a, handles⟩) := by
  obtain ⟨token, start, stop⟩ := p
  obtain rfl : token = .flowSequenceEnd := hp
  cases first <;> rfl

theorem flowItems?_word {w : Word} (hp : p.token = w.token) :
    ∃ n, w.IsNode n ∧ ∀ fuel ts a handles, flowItems? (fuel + 2) true ⟨p :: ts, a, handles⟩ =
      (flowItems? (fuel + 1) false ⟨ts, a, handles⟩).map fun (others, s) => (n :: others, s) := by
  obtain ⟨n, hn, hread⟩ := node?_word hp
  refine ⟨n, hn, fun fuel ts a handles => ?_⟩
  obtain ⟨token, start, stop⟩ := p
  obtain rfl : token = w.token := hp
  have hnode := hread false false fuel ts a handles
  rw [flowItems?]
  simp only [Stream.next?, List.head?_cons, Option.map_some, Word.token]
  rw [Word.token] at hnode
  rw [hnode]

/-- The tokens are read as these items, whatever follows them. -/
def ReadsItems (ps : List Placed) (nodes : List Node) : Prop :=
  ∀ fuel rest a handles, ps.length ≤ fuel →
    flowItems? fuel true ⟨ps ++ rest, a, handles⟩ = some (nodes, ⟨rest, a, handles⟩)

/-- The items of a list that is not empty, by induction on those after the first. -/
theorem exists_items {w : Word} {ws : List Word}
    (hps : ps.map Placed.token =
      ((w :: ws).map Word.token).intersperse .flowEntry ++ [.flowSequenceEnd]) :
    ∃ nodes, List.Forall₂ Word.IsNode (w :: ws) nodes ∧ ReadsItems ps nodes := by
  induction ws generalizing w ps with
  | nil =>
    obtain ⟨p, last, rfl, hp, hlast⟩ := List.map_eq_cons_iff.1 hps
    obtain ⟨close, _, rfl, hclose, hnil⟩ := List.map_eq_cons_iff.1 hlast
    obtain rfl := List.map_eq_nil_iff.1 hnil
    obtain ⟨n, hn, hread⟩ := flowItems?_word hp
    refine ⟨[n], .cons hn .nil, fun fuel rest a handles hfuel => ?_⟩
    obtain ⟨fuel, rfl⟩ := Nat.exists_eq_add_of_le' hfuel
    rw [List.cons_append, List.singleton_append]
    exact (hread ..).trans (congrArg (Option.map _) (flowItems?_end false hclose))
  | cons next others ih =>
    obtain ⟨p, tail, rfl, hp, htail⟩ := List.map_eq_cons_iff.1 hps
    obtain ⟨comma, more, rfl, hcomma, hmore⟩ := List.map_eq_cons_iff.1 htail
    obtain ⟨n, hn, hread⟩ := flowItems?_word hp
    obtain ⟨nodes, hnodes, hitems⟩ := ih hmore
    refine ⟨n :: nodes, .cons hn hnodes, fun fuel rest a handles hfuel => ?_⟩
    rw [List.length_cons, List.length_cons] at hfuel
    obtain ⟨fuel, rfl⟩ := Nat.exists_eq_add_of_le' (Nat.le_trans (Nat.le_add_left 2 _) hfuel)
    rw [List.cons_append, List.cons_append, hread, flowItems?_comma hcomma,
      hitems (fuel + 1) _ _ _ (by omega)]
    rfl

theorem exists_items_of_list {ws : List Word}
    (hps : ps.map Placed.token = (ws.map Word.token).intersperse .flowEntry ++ [.flowSequenceEnd]) :
    ∃ nodes, List.Forall₂ Word.IsNode ws nodes ∧ ReadsItems ps nodes := by
  cases ws with
  | nil =>
    obtain ⟨close, _, rfl, hclose, hnil⟩ := List.map_eq_cons_iff.1 hps
    obtain rfl := List.map_eq_nil_iff.1 hnil
    refine ⟨[], .nil, fun fuel rest a handles hfuel => ?_⟩
    obtain ⟨fuel, rfl⟩ := Nat.exists_eq_add_of_le' hfuel
    exact flowItems?_end true hclose
  | cons w ws => exact exists_items hps

/-- A line is read before those after it. -/
theorem blockMembers?_line {key name value : Placed} {w : Word} (hkey : key.token = .key)
    (hname : name.token = w.token) (hvalue : value.token = .value) :
    ∃ k, w.IsNode k ∧ ∀ fuel ts a handles, endsBlockItem (ts.head?.map Placed.token) = false →
      blockMembers? (fuel + 3) ⟨key :: name :: value :: ts, a, handles⟩ =
        (node? true true (fuel + 1) ⟨ts, a, handles⟩).bind fun (v, s) =>
          (blockMembers? (fuel + 2) s).map fun (others, s) => ((k, v) :: others, s) := by
  obtain ⟨k, hk, hread⟩ := node?_word hname
  refine ⟨k, hk, fun fuel ts a handles hts => ?_⟩
  obtain ⟨_, keyStart, keyStop⟩ := key
  obtain ⟨_, nameStart, nameStop⟩ := name
  obtain ⟨_, valueStart, valueStop⟩ := value
  subst hkey hname hvalue
  have hv : blockValue? (fuel + 2) ⟨⟨.value, valueStart, valueStop⟩ :: ts, a, handles⟩ =
      node? true true (fuel + 1) ⟨ts, a, handles⟩ := by
    rw [blockValue?]
    simp only [Stream.next?, Stream.drop, List.drop_succ_cons, List.drop_zero, hts, Bool.false_eq_true,
      if_false]
  rw [blockMembers?]
  simp only [Stream.next?, Stream.drop, List.drop_succ_cons, List.drop_zero, List.head?_cons,
    Option.map_some]
  rw [if_neg (by simp [Word.token, endsBlockItem]), hread]
  simp only [hv]
  cases node? true true (fuel + 1) ⟨ts, a, handles⟩ <;> rfl

theorem blockMembers?_end (hp : p.token = .blockEnd) :
    blockMembers? (fuel + 1) ⟨p :: ts, a, handles⟩ = some ([], ⟨ts, a, handles⟩) := by
  obtain ⟨token, start, stop⟩ := p
  obtain rfl : token = .blockEnd := hp
  rfl

/-- No content is left out. -/
theorem Content.endsBlockItem_kinds (content : Content) : endsBlockItem content.kinds.head? = false := by
  cases content <;> rfl

theorem Content.head_kinds (content : Content) (hps : ps.map Placed.token = content.kinds)
    (rest : List Placed) : endsBlockItem ((ps ++ rest).head?.map Placed.token) = false := by
  have hhead := content.endsBlockItem_kinds
  rw [← hps] at hhead
  cases ps with
  | nil => cases content <;> cases hps
  | cons p others => exact hhead

/-- The tokens are read as this node, whatever follows them. -/
def ReadsNode (ps : List Placed) (n : Node) : Prop :=
  ∀ indentless fuel rest a handles, ps.length ≤ fuel →
    node? true indentless fuel ⟨ps ++ rest, a, handles⟩ = some (n, ⟨rest, a, handles⟩)

/-- The tokens before the end of a block are read as these members, whatever follows. -/
def ReadsMembers (ps : List Placed) (pairs : List (Node × Node)) : Prop :=
  ∀ fuel close rest a handles, close.token = .blockEnd → ps.length < fuel →
    blockMembers? fuel ⟨ps ++ close :: rest, a, handles⟩ = some (pairs, ⟨rest, a, handles⟩)

end Reading

mutual

/-- The tokens of a content are read as a node that shows it. -/
theorem Content.exists_node (content : Content) {ps : List Placed}
    (hps : ps.map Placed.token = content.kinds) : ∃ n, content.Shows n ∧ ReadsNode ps n := by
  match content with
  | .word w =>
    obtain ⟨p, _, rfl, hp, hnil⟩ := List.map_eq_cons_iff.1 hps
    obtain rfl := List.map_eq_nil_iff.1 hnil
    obtain ⟨n, hn, hread⟩ := node?_word hp
    refine ⟨n, hn, fun indentless fuel rest a handles hfuel => ?_⟩
    obtain ⟨fuel, rfl⟩ := Nat.exists_eq_add_of_le' hfuel
    exact hread ..
  | .words _ ws =>
    obtain ⟨p, ts, rfl, hp, hts⟩ := List.map_eq_cons_iff.1 hps
    obtain ⟨nodes, hnodes, hread⟩ := exists_items_of_list hts
    refine ⟨_, ⟨p.start, nodes, rfl, hnodes⟩, fun indentless fuel rest a handles hfuel => ?_⟩
    obtain ⟨fuel, rfl⟩ := Nat.exists_eq_add_of_le' (Nat.le_trans (Nat.le_add_left 1 _) hfuel)
    rw [List.cons_append, node?_flow hp, hread fuel _ _ _ (Nat.le_of_succ_le_succ hfuel)]
    rfl
  | .lines _ ls =>
    obtain ⟨p, ts, rfl, hp, hts⟩ := List.map_eq_cons_iff.1 hps
    obtain ⟨lines, ends, rfl, hlines, hends⟩ := List.map_eq_append_iff.1 hts
    obtain ⟨close, _, rfl, hclose, hnil⟩ := List.map_eq_cons_iff.1 hends
    obtain rfl := List.map_eq_nil_iff.1 hnil
    obtain ⟨pairs, hpairs, hread⟩ := ls.exists_members hlines
    refine ⟨_, ⟨p.start, pairs, rfl, hpairs⟩, fun indentless fuel rest a handles hfuel => ?_⟩
    obtain ⟨fuel, rfl⟩ := Nat.exists_eq_add_of_le' (Nat.le_trans (Nat.le_add_left 1 _) hfuel)
    simp only [List.length_cons, List.length_append, List.length_nil] at hfuel
    rw [List.cons_append, node?_block hp, List.append_assoc, List.singleton_append,
      hread fuel close _ _ _ hclose (by omega)]
    rfl

/-- The tokens of lines are read as members that show them. -/
theorem Lines.exists_members (ls : Lines) {ps : List Placed} (hps : ps.map Placed.token = ls.kinds) :
    ∃ pairs, ls.Shows pairs ∧ ReadsMembers ps pairs := by
  match ls with
  | .one key content =>
    obtain ⟨k, ts, rfl, hk, hts⟩ := List.map_eq_cons_iff.1 hps
    obtain ⟨name, ts, rfl, hname, hts⟩ := List.map_eq_cons_iff.1 hts
    obtain ⟨v, ts, rfl, hv, hts⟩ := List.map_eq_cons_iff.1 hts
    obtain ⟨n, hn, hread⟩ := content.exists_node hts
    obtain ⟨m, hm, hline⟩ := blockMembers?_line hk hname hv
    refine ⟨[(m, n)], ⟨m, n, rfl, hm, hn⟩, fun fuel close rest a handles hclose hfuel => ?_⟩
    simp only [List.length_cons] at hfuel
    obtain ⟨fuel, rfl⟩ := Nat.exists_eq_add_of_le' (by omega : 3 ≤ fuel)
    rw [List.cons_append, List.cons_append, List.cons_append,
      hline _ _ _ _ (content.head_kinds hts _), hread true (fuel + 1) _ _ _ (by omega)]
    exact congrArg (Option.map _) (blockMembers?_end hclose)
  | .cons key content others =>
    obtain ⟨k, ts, rfl, hk, hts⟩ := List.map_eq_cons_iff.1 hps
    obtain ⟨name, ts, rfl, hname, hts⟩ := List.map_eq_cons_iff.1 hts
    obtain ⟨v, ts, rfl, hv, hts⟩ := List.map_eq_cons_iff.1 hts
    obtain ⟨cs, os, rfl, hcs, hos⟩ := List.map_eq_append_iff.1 hts
    obtain ⟨n, hn, hread⟩ := content.exists_node hcs
    obtain ⟨m, hm, hline⟩ := blockMembers?_line hk hname hv
    obtain ⟨pairs, hpairs, hothers⟩ := others.exists_members hos
    refine ⟨(m, n) :: pairs, ⟨m, n, pairs, rfl, hm, hn, hpairs⟩,
      fun fuel close rest a handles hclose hfuel => ?_⟩
    simp only [List.length_cons, List.length_append] at hfuel
    obtain ⟨fuel, rfl⟩ := Nat.exists_eq_add_of_le' (by omega : 3 ≤ fuel)
    rw [List.cons_append, List.cons_append, List.cons_append, List.append_assoc,
      hline _ _ _ _ (content.head_kinds hcs _), hread true (fuel + 1) _ _ _ (by omega)]
    exact congrArg (Option.map _) (hothers (fuel + 2) close rest a handles hclose (by omega))

end

/-! ## Documents -/

/-- A text of one node is read as this node. -/
theorem tree?_node {ts : List Placed} {last : Placed} {n : Node}
    (hhead : ts.head?.map Placed.token = some .blockMappingStart) (hlast : last.token = .streamEnd)
    (hread : Yaml.node? true false (3 * ts.length + 8) ⟨ts, .none, defaultHandles⟩ =
      some (n, ⟨[last], .none, defaultHandles⟩)) :
    tree? ts = some ⟨some n, .none⟩ := by
  have hends : endsStream [last] = true := by
    obtain ⟨token, start, stop⟩ := last
    obtain rfl : token = .streamEnd := hlast
    rfl
  simp only [tree?, hhead, hread, Option.map_some, hends, if_true]

/-- The text of a document is read as a mapping that shows its lines, if its keys fit. -/
theorem Lines.parse? {ls : Lines} {text : String} (h : ls.WritesText text) (hfit : ls.KeysFit) :
    ∃ m pairs, Yaml.parse? text = some ⟨some (.mapping m pairs), .none⟩ ∧ ls.Shows pairs := by
  obtain ⟨ts, htokens, hts⟩ := Lines.tokens? h hfit
  have hsplit : Token.blockMappingStart :: (ls.kinds ++ [.blockEnd, .streamEnd]) =
      (Content.lines 0 ls).kinds ++ [.streamEnd] := by
    simp [Content.kinds]
  rw [hsplit] at hts
  obtain ⟨ps, ends, rfl, hps, hends⟩ := List.map_eq_append_iff.1 hts
  obtain ⟨last, _, rfl, hlast, hnil⟩ := List.map_eq_cons_iff.1 hends
  obtain rfl := List.map_eq_nil_iff.1 hnil
  obtain ⟨n, ⟨m, pairs, rfl, hpairs⟩, hread⟩ := (Content.lines 0 ls).exists_node hps
  have hhead : (ps ++ [last]).head?.map Placed.token = some .blockMappingStart := by
    cases ps with
    | nil => cases hps
    | cons p others => exact congrArg some (List.cons.inj hps).1
  refine ⟨m, pairs, ?_, hpairs⟩
  simp only [Yaml.parse?, htokens]
  refine tree?_node hhead hlast (hread false _ [last] .none defaultHandles ?_)
  simp only [List.length_append]
  omega

theorem Lines.parse?_eq_none {ls : Lines} {text : String} (h : ls.WritesText text)
    (hfit : ¬ls.KeysFit) : Yaml.parse? text = none := by
  simp only [Yaml.parse?, Lines.tokens?_eq_none h hfit]

end Yaml
end PackPlan
