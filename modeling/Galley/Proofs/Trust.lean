import Galley.Compile
import Galley.Proofs.Escaping

/-!
# Two judges of trust

Writing a value out and the filter that escapes it decide each for itself whether the text of the value
is trusted. The writer looks at the value: it trusts safe texts and texts that announce markup. The
filter looks at the text of the value, and there the announcement is lost.

* `Value.escaped`: what the filter makes of a value, and `Value.escaped_escaped`: nothing more of that.
* `Value.Announces`: the values on which the judges differ, and `Value.render_escaped_iff`: no others.
* `Expression.now`, `Expression.escapedAt`: an expression whose value is written as it is by now, and
  with the filter behind it.
* `render_escape`: **escaping twice is escaping once, and with autoescaping on the filter changes
  nothing exactly for values that announce no markup.**
-/

namespace Galley

open Rendering Text

variable {v w : Option Value} {s s' : Scope} {e : Expression} {place tag : Span}

/-! ## Values -/

/-- **What the filter that escapes makes** of a value. -/
def Value.escaped (v : Option Value) : Except Fault (Option Value) := BuiltinFilter.escape.apply Option.none v

/-- **A value announces markup** that would not survive escaping: a text that is no safe one, but says
that it is written as it is. -/
def Value.Announces (v : Option Value) : Prop := ∃ t, v = some (.text .markup t) ∧ escapeMarkup t ≠ t

/-- The filter leaves a safe text alone and escapes the text of all others. -/
theorem Value.escaped_eq (v : Option Value) :
    Value.escaped v = if isSafeText v then .ok v else
      (ofHost (textOrEmpty v)).map fun t => some (.safe (escapeMarkup t)) := by
  unfold Value.escaped BuiltinFilter.apply
  dsimp only
  split
  · rfl
  · rcases textOrEmpty v with e | t <;> rfl

/-- What it makes is a safe text. -/
theorem Value.exists_of_escaped (h : Value.escaped v = .ok w) : ∃ t, w = some (.safe t) := by
  rw [escaped_eq] at h
  split at h
  · next hsafe =>
    cases h
    rcases v with _ | v
    · cases hsafe
    · cases htext : v.toText with
      | ok t => exact ⟨t, eq_of_isSafeText hsafe htext⟩
      | error e =>
        -- a safe text has a text
        unfold isSafeText Value.isSafe at hsafe
        rw [Option.any_some] at hsafe
        split at hsafe <;> cases hsafe
        cases htext
  · obtain ⟨t, -, rfl⟩ := map_eq_ok h
    exact ⟨escapeMarkup t, rfl⟩

/-- **Nothing more is made of that.** -/
theorem Value.escaped_escaped (h : Value.escaped v = .ok w) : Value.escaped w = .ok w := by
  obtain ⟨t, rfl⟩ := exists_of_escaped h
  rfl

/-- **The filter changes what is written** exactly for a value that announces markup. Otherwise both
escape its text once or not at all, and where the value has no text both fail with the same error. -/
theorem Value.render_escaped_iff (v : Option Value) :
    (Value.escaped v >>= fun w => ofHost (Value.render w true)) = ofHost (Value.render v true) ↔
      ¬Value.Announces v := by
  have hagree (hv : ∀ t, v ≠ some (.text .markup t))
      (h : (Value.escaped v >>= fun w => ofHost (Value.render w true)) =
        ofHost (Value.render v true)) :
      (Value.escaped v >>= fun w => ofHost (Value.render w true)) = ofHost (Value.render v true) ↔
        ¬Value.Announces v := by
    refine iff_of_true h ?_
    rintro ⟨t, rfl, -⟩
    exact hv t rfl
  rcases v with _ | v
  · exact hagree (by rintro t ⟨⟩) rfl
  · cases v with
    | text kind t =>
      cases kind with
      | plain => exact hagree (by rintro t ⟨⟩) rfl
      | safe => exact hagree (by rintro t ⟨⟩) rfl
      | markup =>
        -- the filter sees the text only, the writer the announcement
        change Except.ok (escapeMarkup t) = Except.ok t ↔ _
        constructor
        · rintro heq ⟨t', ⟨⟩, hne⟩
          exact hne (Except.ok.inj heq)
        · intro hnot
          by_contra hne
          exact hnot ⟨t, rfl, fun heq => hne (congrArg _ heq)⟩
    | _ =>
      refine hagree (by rintro t ⟨⟩) ?_
      rw [escaped_eq]
      simp only [isSafeText, Option.any_some, isSafe, Bool.false_eq_true, if_false, textOrEmpty,
        Value.render, Content.ofValue]
      generalize Value.toText _ = text
      rcases text with e | t <;> rfl

/-! ## Expressions -/

/-- The value of an expression **as it is by now**, behind all that looking it up took from lists. -/
def Expression.now (e : Expression) : Rendering (Option Value) := do
  (← e.resolve .lenient).mapM current

/-- An expression with the filter that escapes **behind it**. -/
def Expression.escapedAt (e : Expression) (tag : Span) : Expression :=
  ⟨e.head, e.filters ++ [⟨tag, .builtin .escape, none⟩]⟩

/-- In a scope with nothing more taken it is the value that was found. -/
theorem Expression.run_now (e : Expression) (s : Scope) :
    e.now.run.run s =
      match (e.resolve .lenient).run.run s with
      | (.ok v, s') => (.ok (v.map s'.current), s')
      | (.error f, s') => (.error f, s') := by
  unfold now
  rw [run_bind]
  rcases (e.resolve .lenient).run.run s with ⟨f | _ | v, s'⟩ <;> rfl

/-- **The value of a variable is as it is by now** while nothing has been taken from a list. -/
theorem Expression.map_current_of_variable {root : String} (hremains : s.remains = [])
    (h : ((⟨.path place root [], []⟩ : Expression).resolve .lenient).run.run s = (.ok v, s')) :
    v.map s'.current = v := by
  have hsame {t : Scope} (ht : t.remains = []) (w : Option Value) : w.map t.current = w := by
    cases w with
    | none => rfl
    | some w =>
      rw [Option.map_some, Scope.current, ht]
      rfl
  have hremains' : s'.remains = [] := by
    change ((Atom.path place root []).resolve .lenient >>= pure).run.run s = (.ok v, s') at h
    rw [bind_pure, Atom.run_resolve_path] at h
    cases hget : s.get? (.str root) with
    | none =>
      rw [hget] at h
      cases h
      exact hremains
    | some w =>
      rw [hget] at h
      cases hcalled : (s.current w).called with
      | error e =>
        dsimp only at h
        rw [hcalled] at h
        cases h
      | ok called =>
        dsimp only at h
        rw [hcalled] at h
        cases called <;> cases h <;> exact hremains
  exact hsame hremains' v

/-- The filter is applied to the value as it is by now. -/
theorem Expression.run_escapedAt (e : Expression) (tag : Span) (s : Scope) :
    ((e.escapedAt tag).resolve .lenient).run.run s =
      match e.now.run.run s with
      | (.ok v, s') => (Value.escaped v, s')
      | (.error f, s') => (.error f, s') := by
  have happly (v : Option Value) (s : Scope) :
      ((FilterUse.mk tag (.builtin .escape) none).apply v).run.run s =
        (Value.escaped (v.map s.current), s) := by
    have hofExcept := run_ofExcept (Value.escaped (v.map s.current)) s
    cases v <;> exact hofExcept
  have hresolve : (e.escapedAt tag).resolve .lenient =
      e.resolve .lenient >>= (FilterUse.mk tag (.builtin .escape) none).apply := by
    unfold escapedAt resolve
    simp only [List.foldlM_append, List.foldlM_cons, List.foldlM_nil, bind_pure, bind_assoc]
  rw [hresolve, run_bind, run_now]
  rcases (e.resolve .lenient).run.run s with ⟨f | v, s'⟩
  · rfl
  · exact happly v s'

/-- What the filter has made stays as it is. -/
theorem Expression.run_now_escapedAt (e : Expression) (tag : Span) (s : Scope) :
    (e.escapedAt tag).now.run.run s = ((e.escapedAt tag).resolve .lenient).run.run s := by
  rw [run_now, run_escapedAt]
  rcases e.now.run.run s with ⟨f | v, s'⟩
  · rfl
  · dsimp only
    cases hmade : Value.escaped v with
    | error f => rfl
    | ok w =>
      obtain ⟨t, rfl⟩ := Value.exists_of_escaped hmade
      have hcurrent : s'.current (.safe t) = .safe t := by
        unfold Scope.current
        split <;> rfl
      dsimp only
      rw [Option.map_some, hcurrent]

/-! ## Output -/

theorem run_written (v : Option Value) (s : Scope) :
    (written v).run.run s = (ofHost (Value.render v s.autoescape), s) := by
  unfold written
  rw [run_bind, run_get]
  dsimp only
  cases Value.render v s.autoescape <;> rfl

/-- An expression with the filter behind it is written out. -/
theorem Expression.run_written_escapedAt (e : Expression) (tag : Span) (s : Scope) :
    ((e.escapedAt tag).resolve .lenient >>= written).run.run s =
      match e.now.run.run s with
      | (.ok v, s') => (Value.escaped v >>= fun w => ofHost (Value.render w s'.autoescape), s')
      | (.error f, s') => (.error f, s') := by
  rw [run_bind, run_escapedAt]
  rcases e.now.run.run s with ⟨f | v, s'⟩
  · rfl
  · dsimp only
    cases Value.escaped v with
    | error f => rfl
    | ok w => exact run_written w s'

/-- With the filter behind it twice it is written out as with the filter once. -/
theorem Expression.run_written_twice (e : Expression) (tag tag' : Span) (s : Scope) :
    (((e.escapedAt tag).escapedAt tag').resolve .lenient >>= written).run.run s =
      ((e.escapedAt tag).resolve .lenient >>= written).run.run s := by
  rw [run_written_escapedAt, run_now_escapedAt, run_bind, run_escapedAt]
  rcases e.now.run.run s with ⟨f | v, s'⟩
  · rfl
  · dsimp only
    cases hmade : Value.escaped v with
    | error f => rfl
    | ok w =>
      dsimp only
      rw [Value.escaped_escaped hmade, run_written]
      rfl

/-- A value that is what it is by now is written out without the filter. -/
theorem Expression.run_written_now
    (h : ∀ v s', (e.resolve .lenient).run.run s = (.ok v, s') → v.map s'.current = v) :
    (e.now >>= written).run.run s = (e.resolve .lenient >>= written).run.run s := by
  rw [run_bind, run_now, run_bind]
  rcases hresolve : (e.resolve .lenient).run.run s with ⟨f | v, s'⟩
  · rfl
  · dsimp only
    rw [h v s' hresolve]

/-- **The filter that escapes agrees with autoescaping** but for one kind of value.

In every scope, with autoescaping on or off, escaping twice comes to what escaping once does. With
autoescaping on, escaping comes to what is written of the value itself, as it is by now, exactly if this
value does not announce markup. This is what an output without the filter comes to, unless something was
taken from a list in the value while it was looked up; so for every variable, as long as nothing has been
taken from a list. -/
theorem render_escape (routes : RouteTable) (e : Expression) (place tag tag' : Span) (s : Scope) :
    let output (e : Expression) := ((Node.output place e).render routes).run.run s
    output ((e.escapedAt tag).escapedAt tag') = output (e.escapedAt tag) ∧
      (s.autoescape = true →
        (output (e.escapedAt tag) = (e.now >>= written).run.run s ↔
          ∀ v s', e.now.run.run s = (.ok v, s') → ¬Value.Announces v)) ∧
      ((∀ v s', (e.resolve .lenient).run.run s = (.ok v, s') → v.map s'.current = v) →
        (e.now >>= written).run.run s = output e) ∧
      (s.remains = [] → ∀ start root, e = ⟨.path start root [], []⟩ →
        (e.now >>= written).run.run s = output e) := by
  have houtput (e : Expression) : (Node.output place e).render routes = e.resolve .lenient >>= written := by
    rw [Node.render]
  dsimp only
  simp only [houtput]
  refine ⟨e.run_written_twice tag tag' s, fun hon => ?_, Expression.run_written_now,
    fun hremains start root he => Expression.run_written_now fun v s' h => ?_⟩
  · have hkeeps : Keeps Scope.Untouched e.now :=
      (e.keeps_resolve .lenient).bind fun _ => keeps_option_mapM keeps_current
    have hleft := hkeeps s
    rw [Expression.run_written_escapedAt, run_bind]
    rcases hnow : e.now.run.run s with ⟨f | v, s'⟩
    · exact iff_of_true rfl (by rintro _ _ ⟨⟩)
    · have hstill : s'.autoescape = true := by
        rw [hnow] at hleft
        exact (congrArg Scope.autoescape hleft).trans hon
      dsimp only
      rw [run_written, hstill, Prod.mk_left_inj, Value.render_escaped_iff]
      constructor
      · rintro hnot _ _ ⟨⟩
        exact hnot
      · intro hall
        exact hall v s' rfl
  · subst he
    exact Expression.map_current_of_variable hremains h

/-- A text that announces markup: it is written as it is, but not with the filter behind it. -/
theorem escape_of_announced :
    let x : Value := .text .markup "<b>"
    let e : Expression := ⟨.path ⟨3, 1⟩ "x" [], []⟩
    let s := Scope.create (some [(.str "x", x)]) true none
    compile "{{ x }}".toList [] = .ok [.output ⟨0, 7⟩ e] ∧
      compile "{{ x|escape }}".toList [] = .ok [.output ⟨0, 14⟩ (e.escapedAt ⟨5, 6⟩)] ∧
      ((renderAll {} [.output ⟨0, 7⟩ e]).run.run s).1 = .ok "<b>" ∧
      ((renderAll {} [.output ⟨0, 14⟩ (e.escapedAt ⟨5, 6⟩)]).run.run s).1 = .ok "&lt;b&gt;" := by
  intro x e s
  have hscan : Token.scan "{{ x }}".toList = [⟨.interpolation, ⟨0, 7⟩⟩] := by decide +kernel
  have hscan' : Token.scan "{{ x|escape }}".toList = [⟨.interpolation, ⟨0, 14⟩⟩] := by decide +kernel
  exact ⟨by rw [compile, hscan]; rfl, by rw [compile, hscan']; rfl, rfl, rfl⟩

end Galley
