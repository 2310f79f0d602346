import TsxCompiler.Tree.Syntax

/-!
# Comparing trees

Whether two trees are the same, part by part.
-/

namespace TsxCompiler

mutual

def Expr.same : Expr → Expr → Bool
  | .this, .this => true
  | .ident a, .ident b => a == b
  | .lit a, .lit b => a == b
  | .array as, .array bs => Argument.sameAll as bs
  | .object as, .object bs => Property.sameAll as bs
  | .func a f, .func b g => a == b && f.same g
  | .arrow a ps f, .arrow b qs g => a == b && Pattern.sameAll ps qs && f.same g
  | .classExpr a c, .classExpr b d => a == b && c.same d
  | .call f as a, .call g bs b => f.same g && Argument.sameAll as bs && a == b
  | .new f none, .new g none => f.same g
  | .new f (some as), .new g (some bs) => f.same g && Argument.sameAll as bs
  | .member a k o, .member b l p => a.same b && k.same l && o == p
  | .unary a x, .unary b y => a == b && x.same y
  | .binary a x y, .binary b z w => a == b && x.same z && y.same w
  | .cond x y z, .cond u v w => x.same u && y.same v && z.same w
  | .assign a x y, .assign b z w => a == b && x.same z && y.same w
  | .jsx a, .jsx b => a.same b
  | _, _ => false
termination_by structural x => x

def Argument.sameAll : List Argument → List Argument → Bool
  | [], [] => true
  | ⟨a, x⟩ :: as, ⟨b, y⟩ :: bs => a == b && x.same y && Argument.sameAll as bs
  | _, _ => false
termination_by structural x => x

def Property.same : Property → Property → Bool
  | .spread x, .spread y => x.same y
  | .keyed k x, .keyed l y => k.same l && x.same y
  | .shorthand a, .shorthand b => a == b
  | _, _ => false
termination_by structural x => x

def Property.sameAll : List Property → List Property → Bool
  | [], [] => true
  | a :: as, b :: bs => a.same b && Property.sameAll as bs
  | _, _ => false
termination_by structural x => x

def PropertyKey.same : PropertyKey → PropertyKey → Bool
  | .ident a, .ident b => a == b
  | .string a, .string b => a == b
  | .number a, .number b => a == b
  | .computed x, .computed y => x.same y
  | _, _ => false
termination_by structural x => x

def MemberKey.same : MemberKey → MemberKey → Bool
  | .ident a, .ident b => a == b
  | .computed x, .computed y => x.same y
  | _, _ => false
termination_by structural x => x

def ArrowBody.same : ArrowBody → ArrowBody → Bool
  | .block as, .block bs => Stmt.sameAll as bs
  | .expr x, .expr y => x.same y
  | _, _ => false
termination_by structural x => x

def Pattern.same : Pattern → Pattern → Bool
  | .ident a, .ident b => a == b
  | .array as, .array bs => Pattern.sameAll as bs
  | .object as, .object bs => PatternProperty.sameAll as bs
  | .withDefault p x, .withDefault q y => p.same q && x.same y
  | .rest p, .rest q => p.same q
  | _, _ => false
termination_by structural x => x

def Pattern.sameAll : List Pattern → List Pattern → Bool
  | [], [] => true
  | a :: as, b :: bs => a.same b && Pattern.sameAll as bs
  | _, _ => false
termination_by structural x => x

def PatternProperty.same : PatternProperty → PatternProperty → Bool
  | .keyed k p, .keyed l q => k.same l && p.same q
  | .shorthand a none, .shorthand b none => a == b
  | .shorthand a (some x), .shorthand b (some y) => a == b && x.same y
  | .rest p, .rest q => p.same q
  | _, _ => false
termination_by structural x => x

def PatternProperty.sameAll : List PatternProperty → List PatternProperty → Bool
  | [], [] => true
  | a :: as, b :: bs => a.same b && PatternProperty.sameAll as bs
  | _, _ => false
termination_by structural x => x

def Func.same : Func → Func → Bool
  | ⟨a, ps, xs⟩, ⟨b, qs, ys⟩ => a == b && Pattern.sameAll ps qs && Stmt.sameAll xs ys
termination_by structural x => x

def ClassBody.same : ClassBody → ClassBody → Bool
  | ⟨none, xs⟩, ⟨none, ys⟩ => ClassMember.sameAll xs ys
  | ⟨some a, xs⟩, ⟨some b, ys⟩ => a.same b && ClassMember.sameAll xs ys
  | _, _ => false
termination_by structural x => x

def ClassMember.same : ClassMember → ClassMember → Bool
  | .method k f a, .method l g b => k.same l && f.same g && a == b
  | .field k none a, .field l none b => k.same l && a == b
  | .field k (some x) a, .field l (some y) b => k.same l && x.same y && a == b
  | _, _ => false
termination_by structural x => x

def ClassMember.sameAll : List ClassMember → List ClassMember → Bool
  | [], [] => true
  | a :: as, b :: bs => a.same b && ClassMember.sameAll as bs
  | _, _ => false
termination_by structural x => x

def Stmt.same : Stmt → Stmt → Bool
  | .block as, .block bs => Stmt.sameAll as bs
  | .decl a, .decl b => a.same b
  | .expr x, .expr y => x.same y
  | .ret none, .ret none => true
  | .ret (some x), .ret (some y) => x.same y
  | .branch x s none, .branch y t none => x.same y && s.same t
  | .branch x s (some u), .branch y t (some v) => x.same y && s.same t && u.same v
  | .throw x, .throw y => x.same y
  | .empty, .empty => true
  | _, _ => false
termination_by structural x => x

def Stmt.sameAll : List Stmt → List Stmt → Bool
  | [], [] => true
  | a :: as, b :: bs => a.same b && Stmt.sameAll as bs
  | _, _ => false
termination_by structural x => x

def Decl.same : Decl → Decl → Bool
  | .var a xs, .var b ys => a == b && Declarator.sameAll xs ys
  | .func a f, .func b g => a == b && f.same g
  | .classDecl a c, .classDecl b d => a == b && c.same d
  | .typeDecl a, .typeDecl b => a == b
  | _, _ => false
termination_by structural x => x

def Declarator.sameAll : List Declarator → List Declarator → Bool
  | [], [] => true
  | ⟨p, none⟩ :: as, ⟨q, none⟩ :: bs => p.same q && Declarator.sameAll as bs
  | ⟨p, some x⟩ :: as, ⟨q, some y⟩ :: bs => p.same q && x.same y && Declarator.sameAll as bs
  | _, _ => false
termination_by structural x => x

def Element.same : Element → Element → Bool
  | ⟨a, as, cs, s⟩, ⟨b, bs, ds, t⟩ =>
    a == b && Attribute.sameAll as bs && Child.sameAll cs ds && s == t
termination_by structural x => x

def Attribute.same : Attribute → Attribute → Bool
  | .named a none, .named b none => a == b
  | .named a (some x), .named b (some y) => a == b && x.same y
  | .spread x, .spread y => x.same y
  | _, _ => false
termination_by structural x => x

def Attribute.sameAll : List Attribute → List Attribute → Bool
  | [], [] => true
  | a :: as, b :: bs => a.same b && Attribute.sameAll as bs
  | _, _ => false
termination_by structural x => x

def AttributeValue.same : AttributeValue → AttributeValue → Bool
  | .string a, .string b => a == b
  | .expr x, .expr y => x.same y
  | .element a, .element b => a.same b
  | _, _ => false
termination_by structural x => x

def Child.same : Child → Child → Bool
  | .text a, .text b => a == b
  | .expr none, .expr none => true
  | .expr (some x), .expr (some y) => x.same y
  | .element a, .element b => a.same b
  | _, _ => false
termination_by structural x => x

def Child.sameAll : List Child → List Child → Bool
  | [], [] => true
  | a :: as, b :: bs => a.same b && Child.sameAll as bs
  | _, _ => false
termination_by structural x => x

end

def DefaultExport.same : DefaultExport → DefaultExport → Bool
  | .func a f, .func b g => a == b && f.same g
  | .classDef a c, .classDef b d => a == b && c.same d
  | .expr x, .expr y => x.same y
  | _, _ => false

def Export.same : Export → Export → Bool
  | .decl a, .decl b => a.same b
  | .default a, .default b => a.same b
  | .list as a, .list bs b => as == bs && a == b
  | .all a, .all b => a == b
  | _, _ => false

def Item.same : Item → Item → Bool
  | .imports a, .imports b => a == b
  | .exports a, .exports b => a.same b
  | .stmt a, .stmt b => a.same b
  | _, _ => false

def Item.sameAll : List Item → List Item → Bool
  | [], [] => true
  | a :: as, b :: bs => a.same b && Item.sameAll as bs
  | _, _ => false

/-- Whether two modules are the same. -/
def Program.same (p q : Program) : Bool :=
  Item.sameAll p.body q.body

end TsxCompiler
