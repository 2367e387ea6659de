import Mathlib
import PreviewApps.Proofs.Rule.RoundTrip

/-!
Rules by their origin. Whatever way a rule comes about, its matchers are known and have arguments,
so its text gives it back as long as no argument holds a backtick. Double quotes and path segments
are the ways in which a backtick gets into an argument.
-/

namespace PreviewApps.Rule

/-- The rules that come about: read from a text, made for a path, or merged. -/
inductive Arises : Rule → Prop
  | parsed {text e} (h : parse text = .ok e) : Arises e
  | pathPrefix (segments : List String) : Arises (pathPrefix segments)
  | merge {a b} (ha : Arises a) (hb : Arises b) : Arises (a.merge b)

theorem Arises.known {e : Rule} (h : Arises e) :
    ∀ m ∈ e.matchers, m.1 ∈ knownMatchers ∧ m.2 ≠ [] := by
  induction h with
  | parsed h =>
    obtain ⟨ts, -, hderives⟩ := parse_eq_ok_iff.1 h
    exact known_of_derives hderives
  | pathPrefix segments =>
    intro m hm
    have hmatcher : m = ("PathPrefix", _) := List.mem_singleton.1 hm
    simp [hmatcher, knownMatchers]
  | merge _ _ iha ihb => exact List.forall_mem_append.2 ⟨iha, ihb⟩

/-- The text of a rule that has come about gives it back exactly if no argument holds a backtick. -/
theorem parse_render_iff_of_arises {e : Rule} (h : Arises e) :
    parse e.render = .ok e ↔ ∀ a ∈ e.arguments, backtick ∉ a.toList := by
  constructor
  · intro hread
    exact (plain_of_parse_render hread).2
  · intro hplain
    exact parse_render h.known hplain

def quotedHost : Rule := (matcher "Host" ["a\"b", "c"]).merge (pathPrefix ["master", "db"])

theorem parse_render_iff_quotedHost :
    Arises quotedHost ∧
      (parse quotedHost.render = .ok quotedHost ↔
        ∀ a ∈ quotedHost.arguments, backtick ∉ a.toList) := by
  have hread : parse "Host(\"a\\\"b\", `c`)" = .ok (matcher "Host" ["a\"b", "c"]) := by cbv
  have harises : Arises quotedHost := .merge (.parsed hread) (.pathPrefix _)
  exact ⟨harises, parse_render_iff_of_arises harises⟩

/-- A single host, though its name reads like two. -/
def oddHost : Rule := matcher "Host" ["a`) || Host(`b"]

/-- What is one host in double quotes is read as a choice of two once it stands in backticks. -/
theorem parse_render_oddHost_ne :
    parse "Host(\"a`) || Host(`b\")" = .ok oddHost ∧ parse oddHost.render ≠ .ok oddHost := by
  have hread : parse "Host(\"a`) || Host(`b\")" = .ok oddHost := by cbv
  have htext : parse oddHost.render = .ok (or (matcher "Host" ["a"]) (matcher "Host" ["b"])) := by
    cbv
  refine ⟨hread, ?_⟩
  rw [htext]
  simp [oddHost]

end PreviewApps.Rule
