import UnusedDeps.Value.Basic

/-!
# Equality of values

Values hold lists and tables of values, so whether two of them are equal is
decided together with the equality of lists of values and of fields.
-/

namespace UnusedDeps.Value

mutual

def decideEq : (a b : Value) → Decidable (a = b)
  | .null, .null => isTrue rfl
  | .bool a, .bool b => decidable_of_iff (a = b) (by simp)
  | .int a, .int b => decidable_of_iff (a = b) (by simp)
  | .float a, .float b => decidable_of_iff (a = b) (by simp)
  | .text a, .text b => decidable_of_iff (a = b) (by simp)
  | .moment k a, .moment l b => decidable_of_iff (k = l ∧ a = b) (by simp)
  | .list a, .list b =>
    match decideItems a b with
    | isTrue h => isTrue (congrArg Value.list h)
    | isFalse h => isFalse fun e => h (Value.list.inj e)
  | .table a, .table b =>
    match decideFields a b with
    | isTrue h => isTrue (congrArg Value.table h)
    | isFalse h => isFalse fun e => h (Value.table.inj e)
  | .null, .bool _ | .null, .int _ | .null, .float _ | .null, .text _ | .null, .moment _ _
  | .null, .list _ | .null, .table _ => isFalse nofun
  | .bool _, .null | .bool _, .int _ | .bool _, .float _ | .bool _, .text _
  | .bool _, .moment _ _ | .bool _, .list _ | .bool _, .table _ => isFalse nofun
  | .int _, .null | .int _, .bool _ | .int _, .float _ | .int _, .text _ | .int _, .moment _ _
  | .int _, .list _ | .int _, .table _ => isFalse nofun
  | .float _, .null | .float _, .bool _ | .float _, .int _ | .float _, .text _
  | .float _, .moment _ _ | .float _, .list _ | .float _, .table _ => isFalse nofun
  | .text _, .null | .text _, .bool _ | .text _, .int _ | .text _, .float _
  | .text _, .moment _ _ | .text _, .list _ | .text _, .table _ => isFalse nofun
  | .moment _ _, .null | .moment _ _, .bool _ | .moment _ _, .int _ | .moment _ _, .float _
  | .moment _ _, .text _ | .moment _ _, .list _ | .moment _ _, .table _ => isFalse nofun
  | .list _, .null | .list _, .bool _ | .list _, .int _ | .list _, .float _ | .list _, .text _
  | .list _, .moment _ _ | .list _, .table _ => isFalse nofun
  | .table _, .null | .table _, .bool _ | .table _, .int _ | .table _, .float _
  | .table _, .text _ | .table _, .moment _ _ | .table _, .list _ => isFalse nofun

def decideItems : (a b : List Value) → Decidable (a = b)
  | [], [] => isTrue rfl
  | [], _ :: _ => isFalse nofun
  | _ :: _, [] => isFalse nofun
  | a :: as, b :: bs =>
    match decideEq a b, decideItems as bs with
    | isTrue h, isTrue t => isTrue (by rw [h, t])
    | isFalse h, _ => isFalse fun e => h (List.cons.inj e).1
    | _, isFalse t => isFalse fun e => t (List.cons.inj e).2

def decideFields : (a b : List (String × Value)) → Decidable (a = b)
  | [], [] => isTrue rfl
  | [], _ :: _ => isFalse nofun
  | _ :: _, [] => isFalse nofun
  | (k, a) :: as, (l, b) :: bs =>
    match decEq k l, decideEq a b, decideFields as bs with
    | isTrue n, isTrue h, isTrue t => isTrue (by rw [n, h, t])
    | isFalse n, _, _ => isFalse fun e => n (Prod.mk.inj (List.cons.inj e).1).1
    | _, isFalse h, _ => isFalse fun e => h (Prod.mk.inj (List.cons.inj e).1).2
    | _, _, isFalse t => isFalse fun e => t (List.cons.inj e).2

end

instance : DecidableEq Value := decideEq

end UnusedDeps.Value
