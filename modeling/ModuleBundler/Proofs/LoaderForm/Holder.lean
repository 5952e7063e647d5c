import Mathlib.Data.List.Nodup
import ModuleBundler.Proofs.LoaderForm.Boundary

/-!
# Variables for requested modules

Loader form keeps requested modules in variables, which it numbers by themselves.

* `moduleVariable_injective` — different numbers make different names;
* `holders_requestsFrom` — the requests that keep a module have the variables of the next numbers;
* **`nodup_holders`** — so each of them has a variable of its own.
-/

namespace ModuleBundler.LoaderForm

open ModuleBundler.Syntax ModuleBundler.Text

/-! ## Names of variables -/

theorem moduleVariable_injective {i j : Nat} (h : moduleVariable i = moduleVariable j) :
    i = j := by
  have hrepr : i.repr = j.repr := (String.append_right_inj "__dep").1 h
  have hdigits := congrArg String.toList hrepr
  rw [Nat.toList_repr, Nat.toList_repr] at hdigits
  -- a number can be read off its digits
  rw [← Nat.ofDigitChars_ten_toDigits (n := i), hdigits, Nat.ofDigitChars_ten_toDigits]

/-- A variable for a requested module begins with the letters of its kind. -/
theorem take_moduleVariable (i : Nat) : (moduleVariable i).toList.take 5 = "__dep".toList := by
  unfold moduleVariable
  rw [String.toList_append]
  rfl

/-- A name that begins with other letters is no variable for a requested module. -/
theorem ne_moduleVariable {name : String} (h : name.toList.take 5 ≠ "__dep".toList) (i : Nat) :
    name ≠ moduleVariable i := by
  rintro rfl
  exact h (take_moduleVariable i)

/-! ## The variables of requests -/

/-- The variables of the requests that keep a module. -/
def holders (placed : List PlacedRequest) : List String :=
  (placed.filter fun r => r.request.needsVariable).map (·.holder)

theorem holders_cons_of_needed {r : PlacedRequest} (placed : List PlacedRequest)
    (h : r.request.needsVariable = true) : holders (r :: placed) = r.holder :: holders placed := by
  unfold holders
  rw [List.filter_cons_of_pos (p := fun r : PlacedRequest => r.request.needsVariable) h,
    List.map_cons]

theorem holders_cons_of_not_needed {r : PlacedRequest} (placed : List PlacedRequest)
    (h : ¬ r.request.needsVariable = true) : holders (r :: placed) = holders placed := by
  unfold holders
  rw [List.filter_cons_of_neg (p := fun r : PlacedRequest => r.request.needsVariable) h]

/-- A statement makes a request that keeps a module. -/
def keepsModule (n : Node) : Bool := (requestOf n).any fun r => r.2.needsVariable

/-- The requests that keep a module have the variables of the next numbers. -/
theorem holders_requestsFrom (next : Nat) (nodes : List Node) :
    holders (requestsFrom next nodes) =
      (List.range' next (nodes.countP keepsModule)).map moduleVariable := by
  induction nodes generalizing next with
  | nil => rfl
  | cons n rest ih =>
    unfold requestsFrom
    split
    · rename_i hrequest
      have hkeeps : ¬ keepsModule n = true := by
        unfold keepsModule
        rw [hrequest]
        exact Bool.false_ne_true
      rw [ih next, List.countP_cons_of_neg hkeeps]
    · rename_i source request hrequest
      have hkeeps : keepsModule n = request.needsVariable := by
        unfold keepsModule
        rw [hrequest]
        rfl
      split
      · rename_i hneeded
        rw [holders_cons_of_needed _ hneeded, ih (next + 1),
          List.countP_cons_of_pos (hkeeps.trans hneeded), List.range'_succ, List.map_cons]
      · rename_i hneeded
        rw [holders_cons_of_not_needed _ hneeded, ih next,
          List.countP_cons_of_neg fun hk => hneeded (hkeeps.symm.trans hk)]

/-- Each request that keeps a module has a variable of its own. -/
theorem nodup_holders (program : Node) : (holders (requests program)).Nodup := by
  unfold requests
  rw [holders_requestsFrom]
  exact List.Nodup.map (fun _ _ => moduleVariable_injective) List.nodup_range'

end ModuleBundler.LoaderForm
