import DocQuery.Syntax.Tree

/-!
# Walks through statements

Three walks through a tree that also enter its subqueries: `mapLiterals` replaces the literals,
`literals` lists them, and `sourceAliases` lists the aliases of the sources. A tree whose literals are
replaced by themselves stays the same (`Statement.mapLiterals_eq_self`).
-/

namespace DocQuery.Syntax

/-! ## Literals -/

mutual

/-- The expression with every literal replaced, also in subqueries. -/
def Expr.mapLiterals (f : Literal → Literal) : Expr → Expr
  | .literal value => .literal (f value)
  | .column c => .column c
  | .call name args => .call name (mapLiteralsOfList f args)
  | .wildcard => .wildcard
  | .compare left op right => .compare (left.mapLiterals f) op (right.mapLiterals f)
  | .like operand pattern negated =>
    .like (operand.mapLiterals f) (pattern.mapLiterals f) negated
  | .isNull operand negated => .isNull (operand.mapLiterals f) negated
  | .inList operand list negated =>
    .inList (operand.mapLiterals f) (mapLiteralsOfList f list) negated
  | .logic op left right => .logic op (left.mapLiterals f) (right.mapLiterals f)
  | .parens inner negated => .parens (inner.mapLiterals f) negated
  | .not inner => .not (inner.mapLiterals f)
  | .subquery statement => .subquery (statement.mapLiterals f)

/-- Several expressions with every literal replaced. -/
def mapLiteralsOfList (f : Literal → Literal) : List Expr → List Expr
  | [] => []
  | e :: es => e.mapLiterals f :: mapLiteralsOfList f es

/-- An optional expression with every literal replaced. -/
def mapLiteralsOfOption (f : Literal → Literal) : Option Expr → Option Expr
  | none => none
  | some e => some (e.mapLiterals f)

/-- The select item with every literal replaced. -/
def SelectItem.mapLiterals (f : Literal → Literal) : SelectItem → SelectItem
  | .wildcard => .wildcard
  | .expr e name => .expr (e.mapLiterals f) name

/-- Several select items with every literal replaced. -/
def mapLiteralsOfItems (f : Literal → Literal) : List SelectItem → List SelectItem
  | [] => []
  | item :: items => item.mapLiterals f :: mapLiteralsOfItems f items

/-- The source with every literal replaced. -/
def Source.mapLiterals (f : Literal → Literal) : Source → Source
  | .table table name => .table table name
  | .query statement name => .query (statement.mapLiterals f) name

/-- The join with every literal replaced. -/
def Join.mapLiterals (f : Literal → Literal) : Join → Join
  | ⟨kind, source, condition⟩ => ⟨kind, source.mapLiterals f, condition.mapLiterals f⟩

/-- Several joins with every literal replaced. -/
def mapLiteralsOfJoins (f : Literal → Literal) : List Join → List Join
  | [] => []
  | join :: joins => join.mapLiterals f :: mapLiteralsOfJoins f joins

/-- The key of an ordering with every literal replaced. -/
def OrderKey.mapLiterals (f : Literal → Literal) : OrderKey → OrderKey
  | ⟨e, ascending⟩ => ⟨e.mapLiterals f, ascending⟩

/-- Several keys of an ordering with every literal replaced. -/
def mapLiteralsOfKeys (f : Literal → Literal) : List OrderKey → List OrderKey
  | [] => []
  | key :: keys => key.mapLiterals f :: mapLiteralsOfKeys f keys

/-- The `SELECT` statement with every literal replaced. -/
def Select.mapLiterals (f : Literal → Literal) : Select → Select
  | ⟨distinct, items, source, joins, condition, groupBy, having, orderBy, limit, offset⟩ =>
    ⟨distinct, mapLiteralsOfItems f items, source.mapLiterals f, mapLiteralsOfJoins f joins,
      mapLiteralsOfOption f condition, groupBy, mapLiteralsOfOption f having,
      mapLiteralsOfKeys f orderBy, limit, offset⟩

/-- The statement with every literal replaced. -/
def Statement.mapLiterals (f : Literal → Literal) : Statement → Statement
  | .select query => .select (query.mapLiterals f)
  | .delete table name condition => .delete table name (mapLiteralsOfOption f condition)

end

mutual

/-- The literals of an expression, also in subqueries. -/
def Expr.literals : Expr → List Literal
  | .literal value => [value]
  | .column _ | .wildcard => []
  | .call _ args => literalsOfList args
  | .compare left _ right => left.literals ++ right.literals
  | .like operand pattern _ => operand.literals ++ pattern.literals
  | .isNull operand _ => operand.literals
  | .inList operand list _ => operand.literals ++ literalsOfList list
  | .logic _ left right => left.literals ++ right.literals
  | .parens inner _ => inner.literals
  | .not inner => inner.literals
  | .subquery statement => statement.literals

/-- The literals of several expressions. -/
def literalsOfList : List Expr → List Literal
  | [] => []
  | e :: es => e.literals ++ literalsOfList es

/-- The literals of an optional expression. -/
def literalsOfOption : Option Expr → List Literal
  | none => []
  | some e => e.literals

/-- The literals of a select item. -/
def SelectItem.literals : SelectItem → List Literal
  | .wildcard => []
  | .expr e _ => e.literals

/-- The literals of several select items. -/
def literalsOfItems : List SelectItem → List Literal
  | [] => []
  | item :: items => item.literals ++ literalsOfItems items

/-- The literals of a source. -/
def Source.literals : Source → List Literal
  | .table _ _ => []
  | .query statement _ => statement.literals

/-- The literals of a join. -/
def Join.literals : Join → List Literal
  | ⟨_, source, condition⟩ => source.literals ++ condition.literals

/-- The literals of several joins. -/
def literalsOfJoins : List Join → List Literal
  | [] => []
  | join :: joins => join.literals ++ literalsOfJoins joins

/-- The literals of a key of an ordering. -/
def OrderKey.literals : OrderKey → List Literal
  | ⟨e, _⟩ => e.literals

/-- The literals of several keys of an ordering. -/
def literalsOfKeys : List OrderKey → List Literal
  | [] => []
  | key :: keys => key.literals ++ literalsOfKeys keys

/-- The literals of a `SELECT` statement. -/
def Select.literals : Select → List Literal
  | ⟨_, items, source, joins, condition, _, having, orderBy, _, _⟩ =>
    literalsOfItems items ++ (source.literals ++ (literalsOfJoins joins ++
      (literalsOfOption condition ++ (literalsOfOption having ++ literalsOfKeys orderBy))))

/-- The literals of a statement, also in subqueries. -/
def Statement.literals : Statement → List Literal
  | .select query => query.literals
  | .delete _ _ condition => literalsOfOption condition

end

theorem literalsOfList_eq_flatMap (es : List Expr) :
    literalsOfList es = es.flatMap Expr.literals := by
  induction es with
  | nil => rfl
  | cons e es ih => rw [literalsOfList, ih, List.flatMap_cons]

theorem literalsOfItems_eq_flatMap (items : List SelectItem) :
    literalsOfItems items = items.flatMap SelectItem.literals := by
  induction items with
  | nil => rfl
  | cons item items ih => rw [literalsOfItems, ih, List.flatMap_cons]

theorem literalsOfJoins_eq_flatMap (joins : List Join) :
    literalsOfJoins joins = joins.flatMap Join.literals := by
  induction joins with
  | nil => rfl
  | cons join joins ih => rw [literalsOfJoins, ih, List.flatMap_cons]

theorem literalsOfKeys_eq_flatMap (keys : List OrderKey) :
    literalsOfKeys keys = keys.flatMap fun key => key.expr.literals := by
  induction keys with
  | nil => rfl
  | cons key keys ih =>
    rw [literalsOfKeys, ih, List.flatMap_cons]
    cases key
    rfl

theorem literalsOfOption_eq_flatMap (e : Option Expr) :
    literalsOfOption e = e.toList.flatMap Expr.literals := by
  cases e with
  | none => rfl
  | some e => exact (List.append_nil _).symm

section

variable {f : Literal → Literal}

mutual

/-- An expression stays the same when each of its literals does. -/
theorem Expr.mapLiterals_eq_self : ∀ e : Expr, (∀ value ∈ e.literals, f value = value) →
    e.mapLiterals f = e
  | .literal value, h => by
    rw [Expr.mapLiterals, h value List.mem_cons_self]
  | .column _, _ => rfl
  | .wildcard, _ => rfl
  | .call name args, h => by
    rw [Expr.mapLiterals, mapLiteralsOfList_eq_self args h]
  | .compare left op right, h => by
    obtain ⟨hl, hr⟩ := List.forall_mem_append.1 h
    rw [Expr.mapLiterals, left.mapLiterals_eq_self hl, right.mapLiterals_eq_self hr]
  | .like operand pattern negated, h => by
    obtain ⟨hl, hr⟩ := List.forall_mem_append.1 h
    rw [Expr.mapLiterals, operand.mapLiterals_eq_self hl, pattern.mapLiterals_eq_self hr]
  | .isNull operand negated, h => by
    rw [Expr.mapLiterals, operand.mapLiterals_eq_self h]
  | .inList operand list negated, h => by
    obtain ⟨hl, hr⟩ := List.forall_mem_append.1 h
    rw [Expr.mapLiterals, operand.mapLiterals_eq_self hl, mapLiteralsOfList_eq_self list hr]
  | .logic op left right, h => by
    obtain ⟨hl, hr⟩ := List.forall_mem_append.1 h
    rw [Expr.mapLiterals, left.mapLiterals_eq_self hl, right.mapLiterals_eq_self hr]
  | .parens inner negated, h => by
    rw [Expr.mapLiterals, inner.mapLiterals_eq_self h]
  | .not inner, h => by
    rw [Expr.mapLiterals, inner.mapLiterals_eq_self h]
  | .subquery statement, h => by
    rw [Expr.mapLiterals, statement.mapLiterals_eq_self h]

theorem mapLiteralsOfList_eq_self : ∀ es : List Expr,
    (∀ value ∈ literalsOfList es, f value = value) → mapLiteralsOfList f es = es
  | [], _ => rfl
  | e :: es, h => by
    obtain ⟨he, hes⟩ := List.forall_mem_append.1 h
    rw [mapLiteralsOfList, e.mapLiterals_eq_self he, mapLiteralsOfList_eq_self es hes]

theorem mapLiteralsOfOption_eq_self : ∀ e : Option Expr,
    (∀ value ∈ literalsOfOption e, f value = value) → mapLiteralsOfOption f e = e
  | none, _ => rfl
  | some e, h => by
    rw [mapLiteralsOfOption, e.mapLiterals_eq_self h]

theorem SelectItem.mapLiterals_eq_self : ∀ item : SelectItem,
    (∀ value ∈ item.literals, f value = value) → item.mapLiterals f = item
  | .wildcard, _ => rfl
  | .expr e name, h => by
    rw [SelectItem.mapLiterals, e.mapLiterals_eq_self h]

theorem mapLiteralsOfItems_eq_self : ∀ items : List SelectItem,
    (∀ value ∈ literalsOfItems items, f value = value) → mapLiteralsOfItems f items = items
  | [], _ => rfl
  | item :: items, h => by
    obtain ⟨hi, his⟩ := List.forall_mem_append.1 h
    rw [mapLiteralsOfItems, item.mapLiterals_eq_self hi, mapLiteralsOfItems_eq_self items his]

theorem Source.mapLiterals_eq_self : ∀ source : Source,
    (∀ value ∈ source.literals, f value = value) → source.mapLiterals f = source
  | .table _ _, _ => rfl
  | .query statement name, h => by
    rw [Source.mapLiterals, statement.mapLiterals_eq_self h]

theorem Join.mapLiterals_eq_self : ∀ join : Join,
    (∀ value ∈ join.literals, f value = value) → join.mapLiterals f = join
  | ⟨kind, source, condition⟩, h => by
    obtain ⟨hs, hc⟩ := List.forall_mem_append.1 h
    rw [Join.mapLiterals, source.mapLiterals_eq_self hs, condition.mapLiterals_eq_self hc]

theorem mapLiteralsOfJoins_eq_self : ∀ joins : List Join,
    (∀ value ∈ literalsOfJoins joins, f value = value) → mapLiteralsOfJoins f joins = joins
  | [], _ => rfl
  | join :: joins, h => by
    obtain ⟨hj, hjs⟩ := List.forall_mem_append.1 h
    rw [mapLiteralsOfJoins, join.mapLiterals_eq_self hj, mapLiteralsOfJoins_eq_self joins hjs]

theorem OrderKey.mapLiterals_eq_self : ∀ key : OrderKey,
    (∀ value ∈ key.literals, f value = value) → key.mapLiterals f = key
  | ⟨e, ascending⟩, h => by
    rw [OrderKey.mapLiterals, e.mapLiterals_eq_self h]

theorem mapLiteralsOfKeys_eq_self : ∀ keys : List OrderKey,
    (∀ value ∈ literalsOfKeys keys, f value = value) → mapLiteralsOfKeys f keys = keys
  | [], _ => rfl
  | key :: keys, h => by
    obtain ⟨hk, hks⟩ := List.forall_mem_append.1 h
    rw [mapLiteralsOfKeys, key.mapLiterals_eq_self hk, mapLiteralsOfKeys_eq_self keys hks]

theorem Select.mapLiterals_eq_self : ∀ query : Select,
    (∀ value ∈ query.literals, f value = value) → query.mapLiterals f = query
  | ⟨distinct, items, source, joins, condition, groupBy, having, orderBy, limit, offset⟩, h => by
    obtain ⟨hitems, h⟩ := List.forall_mem_append.1 h
    obtain ⟨hsource, h⟩ := List.forall_mem_append.1 h
    obtain ⟨hjoins, h⟩ := List.forall_mem_append.1 h
    obtain ⟨hcondition, h⟩ := List.forall_mem_append.1 h
    obtain ⟨hhaving, horder⟩ := List.forall_mem_append.1 h
    rw [Select.mapLiterals, mapLiteralsOfItems_eq_self items hitems,
      source.mapLiterals_eq_self hsource, mapLiteralsOfJoins_eq_self joins hjoins,
      mapLiteralsOfOption_eq_self condition hcondition, mapLiteralsOfOption_eq_self having hhaving,
      mapLiteralsOfKeys_eq_self orderBy horder]

/-- **A statement stays the same when each of its literals does.** -/
theorem Statement.mapLiterals_eq_self : ∀ s : Statement,
    (∀ value ∈ s.literals, f value = value) → s.mapLiterals f = s
  | .select query, h => by
    rw [Statement.mapLiterals, query.mapLiterals_eq_self h]
  | .delete table name condition, h => by
    rw [Statement.mapLiterals, mapLiteralsOfOption_eq_self condition h]

end

end

/-! ## Aliases of sources -/

mutual

/-- The aliases of the sources in an expression, which are those of its subqueries. -/
def Expr.sourceAliases : Expr → List String
  | .literal _ | .column _ | .wildcard => []
  | .call _ args => aliasesOfList args
  | .compare left _ right => left.sourceAliases ++ right.sourceAliases
  | .like operand pattern _ => operand.sourceAliases ++ pattern.sourceAliases
  | .isNull operand _ => operand.sourceAliases
  | .inList operand list _ => operand.sourceAliases ++ aliasesOfList list
  | .logic _ left right => left.sourceAliases ++ right.sourceAliases
  | .parens inner _ => inner.sourceAliases
  | .not inner => inner.sourceAliases
  | .subquery statement => statement.sourceAliases

/-- The aliases of the sources in several expressions. -/
def aliasesOfList : List Expr → List String
  | [] => []
  | e :: es => e.sourceAliases ++ aliasesOfList es

/-- The aliases of the sources in an optional expression. -/
def aliasesOfOption : Option Expr → List String
  | none => []
  | some e => e.sourceAliases

/-- The aliases of the sources in a select item. -/
def SelectItem.sourceAliases : SelectItem → List String
  | .wildcard => []
  | .expr e _ => e.sourceAliases

/-- The aliases of the sources in several select items. -/
def aliasesOfItems : List SelectItem → List String
  | [] => []
  | item :: items => item.sourceAliases ++ aliasesOfItems items

/-- The alias of a source, and those of the sources in it. -/
def Source.sourceAliases : Source → List String
  | .table _ name => name.toList
  | .query statement name => name.toList ++ statement.sourceAliases

/-- The aliases of the sources in a join. -/
def Join.sourceAliases : Join → List String
  | ⟨_, source, condition⟩ => source.sourceAliases ++ condition.sourceAliases

/-- The aliases of the sources in several joins. -/
def aliasesOfJoins : List Join → List String
  | [] => []
  | join :: joins => join.sourceAliases ++ aliasesOfJoins joins

/-- The aliases of the sources in the keys of an ordering. -/
def aliasesOfKeys : List OrderKey → List String
  | [] => []
  | ⟨e, _⟩ :: keys => e.sourceAliases ++ aliasesOfKeys keys

/-- The aliases of the sources in a `SELECT` statement. -/
def Select.sourceAliases : Select → List String
  | ⟨_, items, source, joins, condition, _, having, orderBy, _, _⟩ =>
    aliasesOfItems items ++ (source.sourceAliases ++ (aliasesOfJoins joins ++
      (aliasesOfOption condition ++ (aliasesOfOption having ++ aliasesOfKeys orderBy))))

/-- The aliases of the sources in a statement, its own and those of its subqueries. -/
def Statement.sourceAliases : Statement → List String
  | .select query => query.sourceAliases
  | .delete _ name condition => name.toList ++ aliasesOfOption condition

end

end DocQuery.Syntax
