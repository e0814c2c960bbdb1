import DocQuery.Syntax.Tree

/-!
# Likeness of trees

Two trees are alike when they differ at most in the sign of a zero: numbers are compared by value.
-/

namespace DocQuery.Syntax

/-- Whether two literals are alike. -/
def Literal.alike : Literal → Literal → Bool
  | .float x, .float y => x.sameValue y
  | a, b => a == b

mutual

/-- Whether two expressions are alike. -/
def Expr.alike : Expr → Expr → Bool
  | .literal a, .literal b => a.alike b
  | .column a, .column b => a == b
  | .call n xs, .call m ys => n == m && exprsAlike xs ys
  | .wildcard, .wildcard => true
  | .compare l o r, .compare l' o' r' => l.alike l' && o == o' && r.alike r'
  | .like e p n, .like e' p' n' => e.alike e' && p.alike p' && n == n'
  | .isNull e n, .isNull e' n' => e.alike e' && n == n'
  | .inList e es n, .inList e' es' n' => e.alike e' && exprsAlike es es' && n == n'
  | .logic o l r, .logic o' l' r' => o == o' && l.alike l' && r.alike r'
  | .parens e n, .parens e' n' => e.alike e' && n == n'
  | .not e, .not e' => e.alike e'
  | .subquery s, .subquery s' => s.alike s'
  | _, _ => false

/-- Whether two lists of expressions are alike. -/
def exprsAlike : List Expr → List Expr → Bool
  | [], [] => true
  | e :: es, e' :: es' => e.alike e' && exprsAlike es es'
  | _, _ => false

/-- Whether two optional expressions are alike. -/
def conditionsAlike : Option Expr → Option Expr → Bool
  | none, none => true
  | some e, some e' => e.alike e'
  | _, _ => false

/-- Whether two select items are alike. -/
def SelectItem.alike : SelectItem → SelectItem → Bool
  | .wildcard, .wildcard => true
  | .expr e a, .expr e' a' => e.alike e' && a == a'
  | _, _ => false

/-- Whether two select lists are alike. -/
def itemsAlike : List SelectItem → List SelectItem → Bool
  | [], [] => true
  | i :: is, i' :: is' => i.alike i' && itemsAlike is is'
  | _, _ => false

/-- Whether two sources are alike. -/
def Source.alike : Source → Source → Bool
  | .table n a, .table n' a' => n == n' && a == a'
  | .query s a, .query s' a' => s.alike s' && a == a'
  | _, _ => false

/-- Whether two joins are alike. -/
def Join.alike : Join → Join → Bool
  | ⟨k, s, c⟩, ⟨k', s', c'⟩ => k == k' && s.alike s' && c.alike c'

/-- Whether two lists of joins are alike. -/
def joinsAlike : List Join → List Join → Bool
  | [], [] => true
  | j :: js, j' :: js' => j.alike j' && joinsAlike js js'
  | _, _ => false

/-- Whether two keys of an ordering are alike. -/
def OrderKey.alike : OrderKey → OrderKey → Bool
  | ⟨e, a⟩, ⟨e', a'⟩ => e.alike e' && a == a'

/-- Whether two orderings are alike. -/
def ordersAlike : List OrderKey → List OrderKey → Bool
  | [], [] => true
  | k :: ks, k' :: ks' => k.alike k' && ordersAlike ks ks'
  | _, _ => false

/-- Whether two `SELECT` statements are alike. -/
def Select.alike : Select → Select → Bool
  | ⟨d, is, s, js, c, g, h, o, l, m⟩, ⟨d', is', s', js', c', g', h', o', l', m'⟩ =>
    d == d' && itemsAlike is is' && s.alike s' && joinsAlike js js' && conditionsAlike c c' &&
      g == g' && conditionsAlike h h' && ordersAlike o o' && l == l' && m == m'

/-- Whether two statements are alike. -/
def Statement.alike : Statement → Statement → Bool
  | .select q, .select q' => q.alike q'
  | .delete t a c, .delete t' a' c' => t == t' && a == a' && conditionsAlike c c'
  | _, _ => false

end

end DocQuery.Syntax
