/-
  OpencodeSwarm.Utils.PlainValue

  The plain values that the helpers of `src/utils` walk over: what `JSON.parse`
  produces, and `undefined`, which a value built in memory may hold.  Numbers
  are a parameter, since no helper looks inside one.
-/
import OpencodeSwarm.Lib.JsString

namespace OpencodeSwarm

open Js

/-- A plain value over the numbers `N`.  An object is the list of its own
    properties in insertion order. -/
inductive PlainValue (N : Type*) where
  | undefined
  | null
  | bool (b : Bool)
  | num (n : N)
  | str (s : JsString)
  | arr (elems : List (PlainValue N))
  | obj (fields : List (JsString × PlainValue N))

namespace PlainValue

variable {N : Type*}

/-! ## Induction -/

section Induction

variable {motive : PlainValue N → Prop}
  (undefined : motive .undefined) (null : motive .null) (bool : ∀ b, motive (.bool b))
  (num : ∀ n, motive (.num n)) (str : ∀ s, motive (.str s))
  (arr : ∀ elems, (∀ v ∈ elems, motive v) → motive (.arr elems))
  (obj : ∀ fields, (∀ f ∈ fields, motive f.2) → motive (.obj fields))

include undefined null bool num str arr obj

set_option linter.unusedSectionVars false in
mutual
/-- Induction in which an array knows the statement of its elements, and an
    object that of its property values. -/
@[elab_as_elim]
theorem treeInduction : (v : PlainValue N) → motive v
  | .undefined => undefined
  | .null => null
  | .bool b => bool b
  | .num n => num n
  | .str s => str s
  | .arr elems => arr elems (motive_of_mem_elems elems)
  | .obj fields => obj fields (motive_of_mem_fields fields)

theorem motive_of_mem_elems : (elems : List (PlainValue N)) → ∀ v ∈ elems, motive v
  | [], _, hv => by cases hv
  | w :: rest, v, hv => by
    rcases List.mem_cons.mp hv with hhead | hrest
    · rw [hhead]
      exact treeInduction w
    · exact motive_of_mem_elems rest v hrest

theorem motive_of_mem_fields :
    (fields : List (JsString × PlainValue N)) → ∀ f ∈ fields, motive f.2
  | [], _, hf => by cases hf
  | (k, w) :: rest, f, hf => by
    rcases List.mem_cons.mp hf with hhead | hrest
    · rw [hhead]
      exact treeInduction w
    · exact motive_of_mem_fields rest f hrest
end

end Induction

/-! ## JSON values -/

/-- What `JSON.parse` can return: no `undefined`, and an object has each key once. -/
inductive IsJson : PlainValue N → Prop
  | null : IsJson .null
  | bool (b : Bool) : IsJson (.bool b)
  | num (n : N) : IsJson (.num n)
  | str (s : JsString) : IsJson (.str s)
  | arr {elems : List (PlainValue N)} (helems : ∀ v ∈ elems, IsJson v) : IsJson (.arr elems)
  | obj {fields : List (JsString × PlainValue N)} (hkeys : (fields.map Prod.fst).Nodup)
      (hfields : ∀ f ∈ fields, IsJson f.2) : IsJson (.obj fields)

theorem IsJson.of_mem_arr {elems : List (PlainValue N)} (h : IsJson (.arr elems))
    {v : PlainValue N} (hv : v ∈ elems) : IsJson v := by
  cases h with
  | arr helems => exact helems v hv

theorem IsJson.nodup_keys {fields : List (JsString × PlainValue N)} (h : IsJson (.obj fields)) :
    (fields.map Prod.fst).Nodup := by
  cases h with
  | obj hkeys _ => exact hkeys

theorem IsJson.of_mem_obj {fields : List (JsString × PlainValue N)} (h : IsJson (.obj fields))
    {f : JsString × PlainValue N} (hf : f ∈ fields) : IsJson f.2 := by
  cases h with
  | obj _ hfields => exact hfields f hf

end PlainValue

end OpencodeSwarm
