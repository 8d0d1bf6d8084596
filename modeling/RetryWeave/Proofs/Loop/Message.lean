import RetryWeave.Expansion.Plan
import RetryWeave.Proofs.Loop.Scope
import RetryWeave.Proofs.Text.Quoting

/-! # What is said after a loop

The message of a loop is written as one string literal, whatever bytes it consists of. -/

namespace RetryWeave.RetryLoop

open Syntax

theorem message_of_build {retries : Int} {message : Bytes} (hmessage : message ≠ [])
    {directive : Directive} {target : Option Owner} {place : Position} {contextName : Option Bytes}
    {supply : NameSupply} {l : RetryLoop}
    (h : build (Options.loopDefaults retries message) directive target place contextName supply =
      .ok l) : l.message = message := by
  obtain ⟨signature, hbuilt⟩ := built_of_build h
  have hkept : Options.orDefault message Options.defaultMessage = message :=
    if_neg (by simpa using hmessage)
  rw [hbuilt.message, Options.loopDefaults, hkept]

theorem lastStmt_inj {l l' : RetryLoop} : l.lastStmt = l'.lastStmt ↔ l.message = l'.message := by
  constructor
  · intro h
    simp only [lastStmt, call, text, Stmt.expr.injEq, Expr.call.injEq, List.cons.injEq,
      Expr.lit.injEq, Lit.mk.injEq, true_and, and_true] at h
    exact Quoted.quote_injective h
  · intro h
    rw [lastStmt, lastStmt, h]

/-- The statement after a loop calls `panic` with a literal. That is one string on one line wherever
it stands, and its value is the message byte for byte, whatever bytes these are. So loops with different
messages end differently. -/
theorem lastStmt_keeps_message {retries : Int} {message : Bytes} (hmessage : message ≠ [])
    {directive : Directive} {target : Option Owner} {place : Position} {contextName : Option Bytes}
    {supply : NameSupply} {l : RetryLoop}
    (h : build (Options.loopDefaults retries message) directive target place contextName supply =
      .ok l) :
    ∃ literal, l.lastStmt = .expr (call "panic" [.lit ⟨none, none, .string, literal⟩]) ∧
      Quoted.StandsFor literal message ∧
      ∀ l' : RetryLoop, l'.lastStmt = l.lastStmt ↔ l'.message = message := by
  obtain rfl := message_of_build hmessage h
  exact ⟨Quoted.quote l.message, rfl, Quoted.standsFor_quote l.message, fun l' => lastStmt_inj⟩

/-- A message of a byte that is no UTF-8, a quote and a line break. -/
theorem lastStmt_keeps_message_bytes :
    ∃ l, build (Options.loopDefaults 0 [255, 34, 10]) ⟨[], .unknown⟩
        (some (.func (durationDecl "n"))) .unknown none ⟨.sequential, "retry", []⟩ = .ok l ∧
      ∃ literal, l.lastStmt = .expr (call "panic" [.lit ⟨none, none, .string, literal⟩]) ∧
        Quoted.StandsFor literal [255, 34, 10] ∧
        ∀ l' : RetryLoop, l'.lastStmt = l.lastStmt ↔ l'.message = [255, 34, 10] := by
  refine ⟨_, rfl, ?_⟩
  have hbuild : build (Options.loopDefaults 0 [255, 34, 10]) ⟨[], .unknown⟩
      (some (.func (durationDecl "n"))) .unknown none ⟨.sequential, "retry", []⟩ = .ok _ := rfl
  exact lastStmt_keeps_message (by decide) hbuild

end RetryWeave.RetryLoop
