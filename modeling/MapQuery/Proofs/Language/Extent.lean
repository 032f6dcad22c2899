import MapQuery.Proofs.Action.WrittenForm
import MapQuery.Proofs.Decimal.Integers
import MapQuery.Proofs.Language.Typing

/-!
# How high the layers of a program are

A call builds a layer that is one level higher than its operands, with one exception: a union of
many layers is grouped to the right, which takes a level for every layer but the last. The *span* of
an expression counts its calls in this way. It bounds the height of whatever is built, and if the
numbers in the text are finite, so are those that are built: an integer distance is a finite float
too. Both are kept by every call, and so by the evaluation of every expression
(`Expression.within_of_evaluate`).
-/

namespace MapQuery

/-! ## Span -/

/-- How many levels a call with so many arguments adds, at most. -/
def levelsOfCall (callee : String) (count : ℕ) : ℕ :=
  if callee = Overlay.union.command then max 1 (count - 1) else 1

mutual

/-- How high the value of the expression is, at most; the call of an action counts as a level. -/
def Expression.span : Expression → ℕ
  | .call callee arguments _ =>
    Expression.argumentsSpan arguments + levelsOfCall callee arguments.length
  | _ => 0

def Expression.argumentsSpan : List (Option String × Expression) → ℕ
  | [] => 0
  | (_, value) :: rest => max value.span (Expression.argumentsSpan rest)

end

mutual

/-- Whether all floats in the expression are finite. -/
def Expression.isFinite : Expression → Bool
  | .literal value => value.isFinite
  | .call _ arguments _ => Expression.argumentsFinite arguments
  | _ => true

def Expression.argumentsFinite : List (Option String × Expression) → Bool
  | [] => true
  | (_, value) :: rest => value.isFinite && Expression.argumentsFinite rest

end

private theorem one_le_levelsOfCall (callee : String) (count : ℕ) :
    1 ≤ levelsOfCall callee count := by
  rw [levelsOfCall]
  split <;> omega

/-! ## Layers and actions within a limit -/

/-- At most so many levels high, and with finite numbers only. -/
def Layer.Within (limit : ℕ) (layer : Layer) : Prop :=
  layer.height ≤ limit ∧ layer.isFinite = true

/-- Nested at most so deep when it is written, and with finite numbers only. -/
def Action.Within (limit : ℕ) (action : Action) : Prop :=
  action.layer.height + 1 ≤ limit ∧ action.layer.isFinite = true

/-- A layer within the limit, or a literal that is finite if it is a float. -/
def Value.Within (limit : ℕ) : Value → Prop
  | .layer l => l.Within limit
  | .literal value => value.isFinite = true
  | .none => True

theorem Layer.Within.mono {m n : ℕ} (hmn : m ≤ n) {layer : Layer} (h : layer.Within m) :
    layer.Within n :=
  ⟨h.1.trans hmn, h.2⟩

theorem Value.Within.mono {m n : ℕ} (hmn : m ≤ n) {value : Value} (h : value.Within m) :
    value.Within n := by
  rcases value with layer | value | _
  · exact Layer.Within.mono hmn h
  · exact h
  · trivial

private theorem Layer.within_source (limit : ℕ) (id : String) :
    (Layer.source id).Within (limit + 1) :=
  ⟨Nat.le_add_left 1 limit, rfl⟩

theorem Layer.Within.filtered {limit : ℕ} {layer : Layer} (h : layer.Within limit) (field : String)
    {value : Literal} (hvalue : value.isFinite = true) :
    (Layer.filtered layer field value).Within (limit + 1) := by
  refine ⟨Nat.succ_le_succ h.1, ?_⟩
  rw [isFinite, h.2, hvalue]
  rfl

theorem Layer.Within.buffered {limit : ℕ} {layer : Layer} (h : layer.Within limit)
    {distance : Float} (hdistance : distance.isFinite = true) :
    (Layer.buffered layer distance).Within (limit + 1) := by
  refine ⟨Nat.succ_le_succ h.1, ?_⟩
  rw [isFinite, h.2, hdistance]
  rfl

theorem Layer.Within.combined {limit : ℕ} {a b : Layer} (ha : a.Within limit) (hb : b.Within limit)
    (overlay : Overlay) : (Layer.combined overlay a b).Within (limit + 1) := by
  refine ⟨Nat.succ_le_succ (max_le ha.1 hb.1), ?_⟩
  rw [isFinite, ha.2, hb.2]
  rfl

/-- A union of many layers is higher than they are by one less than their number. -/
theorem Layer.within_foldr {limit : ℕ} {layers : List Layer} {last : Layer}
    (hlayers : ∀ layer ∈ layers, layer.Within limit) (hlast : last.Within limit) :
    (layers.foldr (.combined .union) last).Within (limit + layers.length) := by
  induction layers with
  | nil => exact hlast
  | cons a rest ih =>
    obtain ⟨ha, hrest⟩ := List.forall_mem_cons.mp hlayers
    exact Within.combined (ha.mono (Nat.le_add_right limit rest.length)) (ih hrest) .union

/-! ## One call -/

section Call

variable {c : Constructor} {limit : ℕ}

theorem Layer.Within.levelsOfCall {layer : Layer} (h : layer.Within (limit + 1)) (callee : String)
    (count : ℕ) : layer.Within (limit + levelsOfCall callee count) :=
  h.mono (Nat.add_le_add_left (one_le_levelsOfCall callee count) limit)

/-- A tree over values within a limit is higher by the levels of the call, or an action on one of
them. -/
theorem Node.Tree.within {node : Node} {values : List Value} {product : Layer ⊕ Action}
    (h : node.Tree values product) (hvalues : ∀ value ∈ values, value.Within limit) :
    (∃ layer, product = .inl layer ∧
      layer.Within (limit + levelsOfCall node.command values.length)) ∨
    (∃ action, product = .inr action ∧ action.Within (limit + 1)) := by
  cases h with
  | source id => exact .inl ⟨_, rfl, (Layer.within_source limit id).levelsOfCall _ _⟩
  | filtered layer field value =>
    have hlayer : layer.Within limit := hvalues (.layer layer) (by simp)
    have hvalue : value.isFinite = true := hvalues (.literal value) (by simp)
    exact .inl ⟨_, rfl, (hlayer.filtered field hvalue).levelsOfCall _ _⟩
  | buffered layer distance =>
    have hlayer : layer.Within limit := hvalues (.layer layer) (by simp)
    have hdistance : distance.isFinite = true := hvalues (.literal (.float distance)) (by simp)
    exact .inl ⟨_, rfl, (hlayer.buffered hdistance).levelsOfCall _ _⟩
  | bufferedInteger layer distance =>
    have hlayer : layer.Within limit := hvalues (.layer layer) (by simp)
    have hdistance := Decimal.isFinite_ofInt distance
    exact .inl ⟨_, rfl, (hlayer.buffered hdistance).levelsOfCall _ _⟩
  | union layers last _ heq =>
    rw [heq, List.forall_mem_map, List.forall_mem_append, List.forall_mem_singleton] at hvalues
    refine .inl ⟨_, rfl, (Layer.within_foldr hvalues.1 hvalues.2).mono ?_⟩
    -- The one command whose call may count for more than one level.
    have hcount : values.length - 1 = layers.length := by simp [heq]
    rw [Node.command, levelsOfCall, if_pos rfl, hcount]
    exact Nat.add_le_add_left (le_max_right _ _) limit
  | combined overlay _ a b =>
    have ha : a.Within limit := hvalues (.layer a) (by simp)
    have hb : b.Within limit := hvalues (.layer b) (by simp)
    exact .inl ⟨_, rfl, (ha.combined hb overlay).levelsOfCall _ _⟩
  | action verb layer =>
    have hlayer : layer.Within limit := hvalues (.layer layer) (by simp)
    exact .inr ⟨_, rfl, Nat.succ_le_succ hlayer.1, hlayer.2⟩

/-- Arguments that are bound are as many as the call is given, or as many as its parameters. -/
theorem Constructor.levelsOfCall_bound (hc : c ∈ Catalog.constructors)
    {arguments : List (Option String × Value)} {bound : List Value}
    (h : c.bind arguments = .ok bound) :
    levelsOfCall c.name bound.length ≤ levelsOfCall c.name arguments.length := by
  rw [levelsOfCall, levelsOfCall]
  split
  · rename_i hunion
    -- A union has two slots, or as many as it has arguments without keyword.
    have hparameters : ∀ c ∈ Catalog.constructors, c.name = Overlay.union.command →
        c.parameters.length = 2 := by decide
    have hcount : arguments.countP (·.1.isNone) ≤ arguments.length := List.countP_le_length
    rw [(mem_of_bind h).1, capacity, hparameters c hc hunion]
    split <;> omega
  · exact le_refl 1

/-- **A call keeps the limits**: its value is as high as its arguments and the levels that the call
adds, and the action that it records, if any, is within the limit. -/
theorem Constructor.within_of_apply (hc : c ∈ Catalog.constructors) {line levels : ℕ}
    {arguments : List (Option String × Value)} {actions final : List Action} {value : Value}
    (h : (c.apply line arguments).run actions = .ok (value, final))
    (harguments : ∀ v ∈ arguments.map Prod.snd, v.Within levels)
    (hlimit : levels + levelsOfCall c.name arguments.length ≤ limit)
    (hactions : ∀ action ∈ actions, action.Within limit) :
    value.Within (levels + levelsOfCall c.name arguments.length) ∧
      ∀ action ∈ final, action.Within limit := by
  obtain ⟨product, hproduct, rfl, rfl⟩ := run_apply_iff.mp h
  obtain ⟨bound, hbind, htree⟩ := hproduct.exists_tree
  have hlevels := levelsOfCall_bound hc hbind
  have hone := one_le_levelsOfCall c.name arguments.length
  obtain ⟨layer, rfl, hlayer⟩ | ⟨action, rfl, haction⟩ :=
    htree.within fun v hv ↦ harguments v ((mem_of_bind hbind).2 v hv)
  · rw [← (Catalog.eq_of_mem hc).1] at hlayer
    exact ⟨hlayer.mono (Nat.add_le_add_left hlevels levels), by rwa [recordOf, List.append_nil]⟩
  · refine ⟨trivial, List.forall_mem_append.mpr ⟨hactions, List.forall_mem_singleton.mpr ?_⟩⟩
    exact ⟨haction.1.trans (by omega), haction.2⟩

end Call

/-! ## Expressions -/

mutual

/-- **Evaluation keeps the limits.** The value of an expression is within its span, and so are the
actions that are recorded on the way. -/
theorem Expression.within_of_evaluate {limit : ℕ} (lineAt : ℕ → ℕ) {actions final : List Action}
    {value : Value} (hactions : ∀ action ∈ actions, action.Within limit) :
    (e : Expression) → e.span ≤ limit → e.isFinite = true →
      (e.evaluate lineAt).run actions = .ok (value, final) →
      value.Within e.span ∧ ∀ action ∈ final, action.Within limit
  | .literal v, _, hfinite, h => by
    rw [evaluate] at h
    cases h
    exact ⟨hfinite, hactions⟩
  | .none, _, _, h => by
    rw [evaluate] at h
    cases h
    exact ⟨trivial, hactions⟩
  | .name word place, _, _, h => by
    rw [evaluate] at h
    cases h
  | .call callee arguments place, hspan, hfinite, h => by
    rw [evaluate] at h
    split at h
    · cases h
    · rename_i c hc
      obtain ⟨values, recorded, hvalues, happly⟩ := run_bind_eq_ok h
      rw [span] at hspan ⊢
      obtain ⟨hlength, hwithin, hrecorded⟩ := within_of_evaluateArguments lineAt hactions arguments
        (by omega) hfinite hvalues
      have hname : c.name = callee := by simpa using List.find?_some hc
      rw [← hname, ← hlength] at hspan ⊢
      exact Constructor.within_of_apply (Catalog.mem_of_find? hc) happly hwithin hspan
        hrecorded

theorem Expression.within_of_evaluateArguments {limit : ℕ} (lineAt : ℕ → ℕ)
    {actions final : List Action} {values : List (Option String × Value)}
    (hactions : ∀ action ∈ actions, action.Within limit) :
    (arguments : List Argument) → argumentsSpan arguments ≤ limit →
      argumentsFinite arguments = true →
      (evaluateArguments lineAt arguments).run actions = .ok (values, final) →
      values.length = arguments.length ∧
      (∀ v ∈ values.map Prod.snd, v.Within (argumentsSpan arguments)) ∧
      ∀ action ∈ final, action.Within limit
  | [], _, _, h => by
    rw [evaluateArguments] at h
    cases h
    exact ⟨rfl, by simp, hactions⟩
  | (keyword, e) :: rest, hspan, hfinite, h => by
    rw [evaluateArguments] at h
    rw [argumentsSpan, max_le_iff] at hspan
    rw [argumentsFinite, Bool.and_eq_true] at hfinite
    obtain ⟨value, recorded, hvalue, h⟩ := run_bind_eq_ok h
    obtain ⟨others, recorded', hothers, h⟩ := run_bind_eq_ok h
    cases h
    obtain ⟨hfirst, hrecorded⟩ := within_of_evaluate lineAt hactions e hspan.1 hfinite.1 hvalue
    obtain ⟨hlength, hrest, hfinal⟩ := within_of_evaluateArguments lineAt hrecorded rest hspan.2
      hfinite.2 hothers
    refine ⟨by rw [List.length_cons, List.length_cons, hlength], fun v hv ↦ ?_, hfinal⟩
    rw [argumentsSpan]
    rcases List.mem_cons.mp hv with rfl | hv
    · exact hfirst.mono (le_max_left _ _)
    · exact (hrest v hv).mono (le_max_right _ _)

end

theorem within_of_evaluateStatements {limit : ℕ} {lineAt : ℕ → ℕ} {statements : List Statement}
    {actions final : List Action} {lines : List ℕ}
    (hspan : ∀ s ∈ statements, s.expression.span ≤ limit ∧ s.expression.isFinite = true)
    (h : (evaluateStatements lineAt statements).run actions = .ok (lines, final))
    (hactions : ∀ action ∈ actions, action.Within limit) :
    ∀ action ∈ final, action.Within limit := by
  induction statements generalizing actions lines with
  | nil =>
    rw [evaluateStatements] at h
    cases h
    exact hactions
  | cons statement rest ih =>
    rw [evaluateStatements] at h
    obtain ⟨value, recorded, hvalue, h⟩ := run_bind_eq_ok h
    obtain ⟨others, recorded', hothers, h⟩ := run_bind_eq_ok h
    have hfirst := hspan statement List.mem_cons_self
    have hrecorded := (Expression.within_of_evaluate lineAt hactions statement.expression hfirst.1
      hfirst.2 hvalue).2
    obtain rfl : recorded' = final := by
      rcases value with layer | value | _ <;> cases h <;> rfl
    exact ih (fun s hs ↦ hspan s (List.mem_cons_of_mem _ hs)) hothers hrecorded

end MapQuery
