import PropositionalCalculus.Formula.Basic

/-!
# Traversals with an explicit stack

A formula may be nested as deeply as a line is long, so the functions here keep the subformulas that
are still to be visited in a list of their own.

* `Formula.depth` is the nesting of a formula; it equals `Formula.height` (`depth_eq_height`).
* `Formula.same` compares two formulas; it is the lawful `==` of formulas.
* `Formula.duplicate` builds a formula again, part by part, from the letters up.
* `Formula.postorder` lists the nodes of a formula with the operands before their operator, and
  `Formula.ofPostorder?` builds a formula from such a list.
-/

set_option autoImplicit false

namespace PropositionalCalculus

namespace Formula

/-- The sizes of all formulas of a stack together. -/
def stackSize : List Formula → Nat
  | [] => 0
  | f :: rest => f.size + stackSize rest

/-! ## Nesting -/

/-- The largest nesting among `deepest` and the pending formulas, each of which stands below the given
number of operators. A right operand is visited before the left one. -/
def depthFrom : List (Formula × Nat) → Nat → Nat
  | [], deepest => deepest
  | (letter _, above) :: rest, deepest => depthFrom rest (max deepest above)
  | (negation body, above) :: rest, deepest =>
      depthFrom ((body, above + 1) :: rest) (max deepest above)
  | (compound _ left right, above) :: rest, deepest =>
      depthFrom ((right, above + 1) :: (left, above + 1) :: rest) (max deepest above)
termination_by pending => stackSize (pending.map Prod.fst)
decreasing_by all_goals simp [stackSize, size]; try omega

/-- The nesting of the formula: a letter has depth zero. -/
def depth (f : Formula) : Nat :=
  depthFrom [(f, 0)] 0

theorem depthFrom_cons (f : Formula) (above : Nat) (rest : List (Formula × Nat)) (deepest : Nat) :
    depthFrom ((f, above) :: rest) deepest = depthFrom rest (max deepest (above + f.height)) := by
  induction f generalizing above rest deepest with
  | letter c => simp [depthFrom, height]
  | negation body ih =>
      simp only [depthFrom, height, ih]
      congr 1
      omega
  | compound op left right ihl ihr =>
      simp only [depthFrom, height, ihl, ihr]
      congr 1
      omega

/-- **The stack finds the nesting of the tree.** -/
theorem depth_eq_height (f : Formula) : f.depth = f.height := by
  simp [depth, depthFrom_cons, depthFrom]

/-! ## Equality -/

/-- Whether the two formulas of every pending pair are the same. -/
def samePairs : List (Formula × Formula) → Bool
  | [] => true
  | (letter c, letter d) :: rest => c == d && samePairs rest
  | (negation f, negation g) :: rest => samePairs ((f, g) :: rest)
  | (compound op left right, compound op' left' right') :: rest =>
      op == op' && samePairs ((left, left') :: (right, right') :: rest)
  | _ :: _ => false
termination_by pending => stackSize (pending.map Prod.fst)
decreasing_by all_goals simp [stackSize, size]; try omega

/-- Whether two formulas are the same tree with the same letters and connectives. -/
def same (f g : Formula) : Bool :=
  samePairs [(f, g)]

theorem samePairs_cons (f g : Formula) (rest : List (Formula × Formula)) :
    samePairs ((f, g) :: rest) = true ↔ f = g ∧ samePairs rest = true := by
  induction f generalizing g rest with
  | letter c => cases g <;> simp [samePairs]
  | negation body ih => cases g <;> simp [samePairs, ih]
  | compound op left right ihl ihr => cases g <;> simp [samePairs, ihl, ihr, and_assoc]

theorem same_iff {f g : Formula} : same f g = true ↔ f = g := by
  simp [same, samePairs_cons, samePairs]

instance : BEq Formula := ⟨same⟩

instance : LawfulBEq Formula where
  eq_of_beq h := same_iff.1 h
  rfl := same_iff.2 rfl

/-! ## Copying -/

/-- What is still to be done for a copy: a formula is entered, and left once its operands are copied. -/
inductive Visit where
  | enter (f : Formula)
  | leave (f : Formula)

/-- The number of visits that a visit leads to, itself included. -/
def Visit.weight : Visit → Nat
  | enter f => 2 * f.size
  | leave _ => 1

/-- The weights of pending visits together. -/
def Visit.totalWeight : List Visit → Nat
  | [] => 0
  | v :: rest => v.weight + totalWeight rest

/-- The parts that are built after the pending visits, the last one on top. An operator takes its operands from
the top; `spare` stands in for an operand that is missing. -/
def copyFrom (spare : Formula) : List Visit → List Formula → List Formula
  | [], built => built
  | .enter (letter c) :: rest, built => copyFrom spare rest (letter c :: built)
  | .enter (negation body) :: rest, built =>
      copyFrom spare (.enter body :: .leave (negation body) :: rest) built
  | .enter (compound op left right) :: rest, built =>
      copyFrom spare (.enter left :: .enter right :: .leave (compound op left right) :: rest) built
  | .leave (letter c) :: rest, built => copyFrom spare rest (letter c :: built)
  | .leave (negation _) :: rest, built =>
      copyFrom spare rest (negation (built.headD spare) :: built.tail)
  | .leave (compound op _ _) :: rest, built =>
      copyFrom spare rest
        (compound op (built.tail.headD spare) (built.headD spare) :: built.tail.tail)
termination_by pending => Visit.totalWeight pending
decreasing_by all_goals simp [Visit.totalWeight, Visit.weight, size]; try omega

/-- A copy of the formula, in which `spare` stands in for every part that is missing. -/
def duplicateWith (spare f : Formula) : Formula :=
  (copyFrom spare [.enter f] []).headD spare

/-- A copy of the formula. -/
def duplicate (f : Formula) : Formula :=
  duplicateWith (letter 'A') f

/-! ## Listing and rebuilding -/

/-- A node of a formula, without its operands. -/
inductive Node where
  | letter (c : Char)
  | negation
  | connective (op : Connective)
deriving DecidableEq

/-- The nodes of the pending formulas, put before `listed`: the last pending formula first, and of each
formula the operator before its operands, so that they come out last. -/
def postorderFrom : List Formula → List Node → List Node
  | [], listed => listed
  | letter c :: rest, listed => postorderFrom rest (.letter c :: listed)
  | negation body :: rest, listed => postorderFrom (body :: rest) (.negation :: listed)
  | compound op left right :: rest, listed =>
      postorderFrom (right :: left :: rest) (.connective op :: listed)
termination_by pending => stackSize pending
decreasing_by all_goals simp [stackSize, size]; try omega

/-- The nodes of the formula, operands before operators and left operands before right ones. -/
def postorder (f : Formula) : List Node :=
  postorderFrom [f] []

/-- Reads nodes with a stack of formulas, the last one built on top. `none` when an operator finds too
few operands. -/
def build? : List Node → List Formula → Option (List Formula)
  | [], built => some built
  | .letter c :: rest, built => build? rest (letter c :: built)
  | .negation :: rest, body :: built => build? rest (negation body :: built)
  | .connective op :: rest, right :: left :: built => build? rest (compound op left right :: built)
  | _ :: _, _ => none

/-- The one formula whose nodes are listed, if there is one. -/
def ofPostorder? (nodes : List Node) : Option Formula :=
  match build? nodes [] with
  | some [f] => some f
  | _ => none

theorem postorderFrom_nil (listed : List Node) : postorderFrom [] listed = listed := by
  rw [postorderFrom]

theorem build?_postorderFrom (f : Formula) (rest : List Formula) (listed : List Node) :
    ∃ nodes, postorderFrom (f :: rest) listed = postorderFrom rest (nodes ++ listed) ∧
      ∀ (more : List Node) (built : List Formula),
        build? (nodes ++ more) built = build? more (f :: built) := by
  induction f generalizing rest listed with
  | letter c => exact ⟨[.letter c], by rw [postorderFrom]; rfl, fun _ _ => rfl⟩
  | negation body ih =>
      obtain ⟨nodes, hlist, hbuild⟩ := ih rest (.negation :: listed)
      refine ⟨nodes ++ [.negation], ?_, fun more built => ?_⟩
      · rw [postorderFrom, hlist, List.append_assoc]
        rfl
      · rw [List.append_assoc, hbuild]
        rfl
  | compound op left right ihl ihr =>
      obtain ⟨nodesr, hlistr, hbuildr⟩ := ihr (left :: rest) (.connective op :: listed)
      obtain ⟨nodesl, hlistl, hbuildl⟩ := ihl rest (nodesr ++ .connective op :: listed)
      refine ⟨nodesl ++ (nodesr ++ [.connective op]), ?_, fun more built => ?_⟩
      · rw [postorderFrom, hlistr, hlistl, List.append_assoc, List.append_assoc]
        rfl
      · rw [List.append_assoc, hbuildl, List.append_assoc, hbuildr]
        rfl

/-- **A formula is rebuilt from the list of its nodes.** -/
theorem ofPostorder?_postorder (f : Formula) : ofPostorder? f.postorder = some f := by
  obtain ⟨nodes, hlist, hbuild⟩ := build?_postorderFrom f [] []
  have read : build? nodes [] = some [f] := by
    have step := hbuild [] []
    rw [List.append_nil] at step
    exact step
  rw [postorder, hlist, postorderFrom_nil, List.append_nil, ofPostorder?, read]

end Formula

end PropositionalCalculus
