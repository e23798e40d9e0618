import Ucollect.Proof.Flow.Tokens
import Ucollect.Proof.Trie.Marks

/-
This file proves that the server reads a filter back from its text.
-/

namespace Ucollect.Master
open Library Flow List Option

def Family.size : Family → Nat
  | .inet => 4
  | .inet6 => 16

namespace Filter
open List Option

section Legal

variable (inetPton : Family → Text → Option Bytes)

/-- The trie of the client gets the addresses that the system knows. -/
def keys (ips : List Bytes) : List Bytes :=
  ips.filterMap fun ip => (convert inetPton ip).map Prod.snd

/-- These are the trees of filters, with names that the language C can hold, with addresses that the
system knows, with lists that cut no edge of a trie, and with numbers that fit in their fields. -/
inductive Legal : Filter → Prop
  | constant (value : Bool) : Legal (.constant value)
  | negation {sub : Filter} (legal : Legal sub) : Legal (.negation [sub])
  | conjunction {subs : List Filter} (legal : ∀ sub ∈ subs, Legal sub)
      (few : subs.length < 2 ^ 32) : Legal (.conjunction subs)
  | disjunction {subs : List Filter} (legal : ∀ sub ∈ subs, Legal sub)
      (few : subs.length < 2 ^ 32) : Legal (.disjunction subs)
  | addresses (side : Side) {ips : List Bytes} (few : ips.length < 2 ^ 32)
      (known : ∀ ip ∈ ips, (∀ byte ∈ ip, Free byte) ∧ (convert inetPton ip).isSome)
      (uncut : Core.Uncut [] (keys inetPton ips)) : Legal (.addresses side ips)
  | ports (side : Side) {ports : List Int} (few : ports.length < 2 ^ 16)
      (small : ∀ port ∈ ports, 0 ≤ port ∧ port < 2 ^ 16) : Legal (.ports side ports)
  | differential (side : Side) {name : Bytes} (plain : Plain name) (zero : 0 ∉ name)
      (few : name.length < 2 ^ 32) : Legal (.differential side name)
  | range (side : Side) {addr bytes : Bytes} {family : Family} {mask : Int}
      (free : ∀ byte ∈ addr, Free byte) (known : convert inetPton addr = some (family, bytes))
      (positive : 1 ≤ mask) (within : mask ≤ 8 * family.size) : Legal (.range side addr mask)

end Legal

/-- What stands between the parentheses of a text. -/
def inner : Filter → Option Bytes
  | .constant _ => none
  | .negation subs => some (commas (strAll subs))
  | .conjunction subs => some (commas (strAll subs))
  | .disjunction subs => some (commas (strAll subs))
  | .addresses _ ips => some (commas ips)
  | .ports _ list => some (commas (list.map strInt))
  | .differential _ name => some name
  | .range _ addr mask => some (commas [addr, strInt mask])

mutual

def depth : Filter → Nat
  | .negation subs => depthAll subs + 1
  | .conjunction subs => depthAll subs + 1
  | .disjunction subs => depthAll subs + 1
  | .constant _ => 1
  | .addresses _ _ => 1
  | .ports _ _ => 1
  | .differential _ _ => 1
  | .range _ _ _ => 1

def depthAll : List Filter → Nat
  | [] => 0
  | sub :: subs => max sub.depth (depthAll subs)

end

theorem str_eq (filter : Filter) :
    filter.str = filter.code :: (filter.inner.elim [] parentheses) := by
  cases filter <;> rw [str, inner] <;> rfl

theorem code_free (filter : Filter) : ∀ byte ∈ [filter.code], Free byte := by
  rw [forall_mem_singleton]
  cases filter with
  | constant value => cases value <;> exact ⟨rfl, rfl⟩
  | addresses side ips => cases side <;> exact ⟨rfl, rfl⟩
  | ports side list => cases side <;> exact ⟨rfl, rfl⟩
  | differential side name => cases side <;> exact ⟨rfl, rfl⟩
  | range side addr mask => cases side <;> exact ⟨rfl, rfl⟩
  | negation subs => exact ⟨rfl, rfl⟩
  | conjunction subs => exact ⟨rfl, rfl⟩
  | disjunction subs => exact ⟨rfl, rfl⟩

end Filter

theorem strAll_eq_map (subs : List Filter) : strAll subs = subs.map Filter.str := by
  induction subs with
  | nil => rfl
  | cons sub subs ih => rw [strAll, ih, map_cons]

section Reading

variable {filter : Filter} {subs : List Filter} {opening rest : Bytes} {fuel : Nat}
  {inetPton : Family → Text → Option Bytes}

/-- The parser of the class gives the filter back and leaves what is behind it. -/
def Rebuilds (filter : Filter) : Prop :=
  ∀ fuel opening rest, filter.depth ≤ fuel → Opening opening → Unspaced rest →
    parse fuel [filter.code]
      (filter.inner.elim rest fun body => opening ++ (body ++ letter ')' :: rest)) =
        some (filter, rest)

theorem takeSub_some {reader : Bytes → Bytes → Option (Filter × Bytes)} {tok left : Bytes}
    {separator : UInt8} (code : tok ≠ []) (read : reader tok rest = some (filter, left)) :
    takeSub reader ⟨tok, separator, rest⟩ = some ([filter], left) := by
  rw [takeSub, if_pos code, read]
  rfl

/-- This is one turn of the loop. -/
theorem getSubs_turn {reader : Bytes → Bytes → Option (Filter × Bytes)} {param left : Bytes}
    {found : Token} (matched : token param = some found)
    (taken : takeSub reader found = some (subs, left)) :
    getSubs reader (fuel + 1) param =
      (if found.separator = letter ')' then some ([], left) else getSubs reader fuel left).map
        fun (more, param) => (subs ++ more, param) := by
  rw [getSubs, matched]
  simp only [taken]
  by_cases ends : found.separator = letter ')'
  · simp [ends]
  · simp only [ends, not_false_eq_true, ne_eq, if_true, if_false]
    cases rest : getSubs reader fuel left <;> simp [rest]

/-- The loop goes on behind a sub, unless a parenthesis ends it. -/
theorem getSubs_sub (rebuilds : Rebuilds filter) {depth : Nat} (deep : filter.depth ≤ depth)
    (text : Unspaced filter.str) (opened : Opening opening) {separator : UInt8}
    (separates : separator = letter ',' ∨ separator = letter ')') (unspaced : Unspaced rest)
    (enough : filter.str.length < fuel) :
    ∃ left, fuel ≤ left + filter.str.length ∧
      getSubs (parse depth) fuel (opening ++ (filter.str ++ separator :: rest)) =
        (if separator = letter ')' then some ([], rest) else getSubs (parse depth) left rest).map
          fun (subs, param) => (filter :: subs, param) := by
  have space : isSeparator separator = true := by
    rcases separates with rfl | rfl <;> decide
  have clear : separator ≠ letter '(' := by
    rcases separates with rfl | rfl <;> decide
  have free := filter.code_free
  have code : [filter.code] ≠ [] := cons_ne_nil _ _
  have built := rebuilds depth
  rw [filter.str_eq] at text enough ⊢
  cases shape : filter.inner with
  | none =>
    simp only [shape, elim_none] at built enough ⊢
    obtain ⟨left, rfl⟩ : ∃ left, fuel = left + 1 := ⟨fuel - 1, by simp at enough; omega⟩
    refine ⟨left, le_rfl, ?_⟩
    have found := token_found opened free space (Or.inl code) unspaced
    rw [getSubs_turn found (takeSub_some code (built [] rest deep (Or.inl rfl) unspaced))]
    rfl
  | some body =>
    simp only [shape, elim_some, parentheses] at built text enough ⊢
    obtain ⟨left, rfl⟩ : ∃ left, fuel = left + 2 := ⟨fuel - 2, by simp at enough; omega⟩
    refine ⟨left, by simp, ?_⟩
    have next : Unspaced (separator :: rest) := .cons (isSpace_separator space) unspaced
    have inside : Unspaced (body ++ letter ')' :: separator :: rest) := by
      have behind := (forall_mem_cons.mp (forall_mem_cons.mp text).2).2
      exact Unspaced.append (forall_mem_append.mp behind).1 (.cons (by decide) next)
    have first := token_found opened free (show isSeparator (letter '(') = true by decide)
      (Or.inl code) inside
    have second : token ([] ++ ([] ++ separator :: rest)) = some ⟨[], separator, rest⟩ :=
      token_found (Or.inl rfl) (forall_mem_nil _) space (Or.inr clear) unspaced
    have reads := built [] (separator :: rest) deep (Or.inl rfl) next
    simp only [nil_append] at second reads
    have layout : [filter.code] ++ letter '(' :: (body ++ letter ')' :: separator :: rest) =
        filter.code :: letter '(' :: (body ++ [letter ')']) ++ separator :: rest := by simp
    rw [← layout, getSubs_turn first (takeSub_some code reads),
      if_neg (show letter '(' ≠ letter ')' by decide), getSubs_turn second rfl]
    cases (if separator = letter ')' then some ([], rest)
      else getSubs (parse depth) left rest) <;> rfl

/-- The texts of the subs follow each other, and then a parenthesis. -/
theorem getSubs_commas (rebuilds : ∀ sub ∈ subs, Rebuilds sub)
    (texts : ∀ sub ∈ subs, Unspaced sub.str) (opened : Opening opening) (unspaced : Unspaced rest)
    {depth : Nat} (deep : Filter.depthAll subs ≤ depth)
    (enough : (commas (strAll subs)).length < fuel) :
    getSubs (parse depth) fuel (opening ++ (commas (strAll subs) ++ letter ')' :: rest)) =
      some (subs, rest) := by
  induction subs generalizing opening fuel with
  | nil =>
    obtain ⟨fuel, rfl⟩ := Nat.exists_eq_add_of_lt enough
    have found : token (opening ++ ([] ++ letter ')' :: rest)) = some ⟨[], letter ')', rest⟩ :=
      token_found opened (forall_mem_nil _) (by decide) (Or.inr (by decide)) unspaced
    rw [strAll, commas_nil, getSubs, found]
    rfl
  | cons sub subs ih =>
    obtain ⟨here, others⟩ := forall_mem_cons.mp rebuilds
    obtain ⟨text, behind⟩ := forall_mem_cons.mp texts
    rw [Filter.depthAll] at deep
    have depths := max_le_iff.mp deep
    cases subs with
    | nil =>
      simp only [strAll, commas_singleton] at enough ⊢
      obtain ⟨left, _, found⟩ :=
        getSubs_sub here depths.1 text opened (Or.inr rfl) unspaced enough
      rw [found, if_pos rfl]
      rfl
    | cons other subs =>
      have tail : Unspaced (commas (strAll (other :: subs)) ++ letter ')' :: rest) := by
        refine (commas_unspaced ?_).append (.cons (by decide) unspaced)
        rw [strAll_eq_map]
        exact List.forall_mem_map.mpr behind
      have split : commas (strAll (sub :: other :: subs)) =
          sub.str ++ letter ',' :: commas (strAll (other :: subs)) := by
        rw [strAll, strAll, commas_cons_cons]
      rw [split, length_append, length_cons] at enough
      have room : sub.str.length < fuel := by omega
      obtain ⟨left, spent, found⟩ :=
        getSubs_sub here depths.1 text opened (Or.inl rfl) tail room
      have behindRoom : (commas (strAll (other :: subs))).length < left := by omega
      have more := ih others behind (Or.inl rfl) depths.2 behindRoom
      rw [nil_append] at more
      rw [split, append_assoc, cons_append, found, if_neg (by decide), more]
      rfl

theorem unspaced_of_free {text : Bytes} (free : ∀ byte ∈ text, Free byte) : Unspaced text :=
  fun byte member => (free byte member).1

theorem str_unspaced {body : Bytes} (shape : filter.inner = some body) (inside : Unspaced body) :
    Unspaced filter.str := by
  rw [filter.str_eq, shape]
  exact .cons (filter.code_free _ mem_cons_self).1
    (.cons (by decide) (inside.append (.cons (by decide) .nil)))

/-- The text of a filter has no space. -/
theorem Filter.Legal.unspaced (legal : filter.Legal inetPton) : Unspaced filter.str := by
  induction legal with
  | constant value => cases value <;> exact .cons (by decide) .nil
  | negation legal ih =>
    refine str_unspaced rfl (commas_unspaced ?_)
    simpa [strAll] using ih
  | conjunction legal few ih =>
    refine str_unspaced rfl (commas_unspaced ?_)
    rw [strAll_eq_map]
    exact List.forall_mem_map.mpr ih
  | disjunction legal few ih =>
    refine str_unspaced rfl (commas_unspaced ?_)
    rw [strAll_eq_map]
    exact List.forall_mem_map.mpr ih
  | addresses side few known uncut =>
    refine str_unspaced rfl (commas_unspaced ?_)
    exact fun ip member => unspaced_of_free (known ip member).1
  | ports side few small =>
    refine str_unspaced rfl (commas_unspaced (List.forall_mem_map.mpr ?_))
    exact fun port member => (strInt_plain (small port member).1).unspaced
  | differential side plain zero few => exact str_unspaced rfl plain.unspaced
  | range side free known positive within =>
    refine str_unspaced rfl (commas_unspaced (forall_mem_cons.mpr ⟨unspaced_of_free free,
      forall_mem_singleton.mpr ?_⟩))
    exact (strInt_plain (le_trans (by decide) positive)).unspaced

theorem mapM_strInt {list : List Int} (natural : ∀ value ∈ list, 0 ≤ value) :
    (list.map strInt).mapM (fun value => intText (asText value)) = some list := by
  induction list with
  | nil => rfl
  | cons value list ih =>
    obtain ⟨here, others⟩ := forall_mem_cons.mp natural
    rw [map_cons, mapM_cons, intText_strInt here, ih others]
    rfl

theorem getSubs_param (rebuilds : ∀ sub ∈ subs, Rebuilds sub)
    (texts : ∀ sub ∈ subs, Unspaced sub.str) (opened : Opening opening) (unspaced : Unspaced rest)
    {depth : Nat} (deep : Filter.depthAll subs ≤ depth) (make : List Filter → Filter) :
    parseSubs make (parse depth) (opening ++ (commas (strAll subs) ++ letter ')' :: rest)) =
      some (make subs, rest) := by
  have enough : (commas (strAll subs)).length <
      (opening ++ (commas (strAll subs) ++ letter ')' :: rest)).length := by
    simp only [length_append, length_cons]
    omega
  rw [parseSubs, getSubs_commas rebuilds texts opened unspaced deep enough]
  rfl

theorem getValues_param {values : List Bytes} (plain : ∀ value ∈ values, Plain value)
    (opened : Opening opening) (unspaced : Unspaced rest) :
    getValues (opening ++ (commas values ++ letter ')' :: rest)).length
        (opening ++ (commas values ++ letter ')' :: rest)) = (values, rest) := by
  apply getValues_commas plain opened unspaced
  simp only [length_append, length_cons]
  omega

/-- Each class reads its own text. -/
theorem Filter.Legal.rebuilds (known : ∀ family, inetPton family [] = none)
    (legal : filter.Legal inetPton) : Rebuilds filter := by
  have nonempty : ∀ ip, (convert inetPton ip).isSome → ip ≠ [] := by
    rintro ip found rfl
    simp [convert, asText, known] at found
  induction legal with
  | constant value =>
    intro fuel opening rest deep opened unspaced
    obtain ⟨fuel, rfl⟩ := Nat.exists_eq_add_of_le' (show 1 ≤ fuel from deep)
    cases value <;> rfl
  | negation legal ih =>
    intro fuel opening rest deep opened unspaced
    obtain ⟨fuel, rfl⟩ := Nat.exists_eq_add_of_le' (le_trans (Nat.le_add_left 1 _) deep)
    exact getSubs_param (forall_mem_singleton.mpr ih)
      (forall_mem_singleton.mpr legal.unspaced) opened unspaced (Nat.le_of_succ_le_succ deep)
      .negation
  | conjunction legal few ih =>
    intro fuel opening rest deep opened unspaced
    obtain ⟨fuel, rfl⟩ := Nat.exists_eq_add_of_le' (le_trans (Nat.le_add_left 1 _) deep)
    exact getSubs_param ih (fun sub member => (legal sub member).unspaced) opened unspaced
      (Nat.le_of_succ_le_succ deep) .conjunction
  | disjunction legal few ih =>
    intro fuel opening rest deep opened unspaced
    obtain ⟨fuel, rfl⟩ := Nat.exists_eq_add_of_le' (le_trans (Nat.le_add_left 1 _) deep)
    exact getSubs_param ih (fun sub member => (legal sub member).unspaced) opened unspaced
      (Nat.le_of_succ_le_succ deep) .disjunction
  | addresses side few known uncut =>
    intro fuel opening rest deep opened unspaced
    obtain ⟨fuel, rfl⟩ := Nat.exists_eq_add_of_le' (show 1 ≤ fuel from deep)
    have values := getValues_param
      (fun ip member => ⟨nonempty ip (known ip member).2, (known ip member).1⟩) opened unspaced
    cases side <;> exact congrArg (fun found => some (Filter.addresses _ found.1, found.2)) values
  | @ports side list few small =>
    intro fuel opening rest deep opened unspaced
    obtain ⟨fuel, rfl⟩ := Nat.exists_eq_add_of_le' (show 1 ≤ fuel from deep)
    have plain : ∀ value ∈ list.map strInt, Plain value :=
      List.forall_mem_map.mpr fun port member => strInt_plain (small port member).1
    have values := getValues_param plain opened unspaced
    have read : ∀ make, parsePorts make _ = some (make list, rest) := fun make => by
      rw [parsePorts, values]
      dsimp only
      rw [mapM_strInt fun port member => (small port member).1]
      rfl
    cases side <;> exact read _
  | differential side plain zero few =>
    intro fuel opening rest deep opened unspaced
    obtain ⟨fuel, rfl⟩ := Nat.exists_eq_add_of_le' (show 1 ≤ fuel from deep)
    have values := getValues_param (forall_mem_singleton.mpr plain) opened unspaced
    rw [commas_singleton] at values
    have read : ∀ make, parseDifferential make _ = some (make _, rest) := fun make => by
      rw [parseDifferential, values]
    cases side <;> exact read _
  | @range side addr bytes family mask free known positive within =>
    intro fuel opening rest deep opened unspaced
    obtain ⟨fuel, rfl⟩ := Nat.exists_eq_add_of_le' (show 1 ≤ fuel from deep)
    have natural : 0 ≤ mask := le_trans (by decide) positive
    have some' : addr ≠ [] := nonempty addr (by rw [known]; rfl)
    have values := getValues_param (forall_mem_cons.mpr ⟨⟨some', free⟩,
      forall_mem_singleton.mpr (strInt_plain natural)⟩) opened unspaced
    have read : ∀ make, parseRange make _ = some (make addr mask, rest) := fun make => by
      rw [parseRange, values]
      dsimp only
      rw [intText_strInt natural]
      rfl
    cases side <;> exact read _

theorem Filter.depthAll_le (small : ∀ sub ∈ subs, sub.depth ≤ sub.str.length) :
    Filter.depthAll subs ≤ (commas (strAll subs)).length := by
  induction subs with
  | nil => exact Nat.zero_le _
  | cons sub subs ih =>
    obtain ⟨here, others⟩ := forall_mem_cons.mp small
    cases subs with
    | nil => simpa [strAll, Filter.depthAll] using here
    | cons other subs =>
      have behind := ih others
      rw [Filter.depthAll]
      rw [strAll] at behind ⊢
      rw [strAll, commas_cons_cons, length_append, length_cons]
      omega

/-- Each level of a filter has a character of its own. -/
theorem Filter.Legal.depth_le (legal : filter.Legal inetPton) :
    filter.depth ≤ filter.str.length := by
  have nested : ∀ (code : UInt8) (body : Bytes),
      body.length + 1 ≤ (code :: parentheses body).length := by
    intro code body
    simp [parentheses]
  induction legal with
  | constant value => exact le_rfl
  | negation legal ih =>
    exact (Nat.succ_le_succ (Filter.depthAll_le (forall_mem_singleton.mpr ih))).trans
      (nested _ _)
  | conjunction legal few ih => exact (Nat.succ_le_succ (Filter.depthAll_le ih)).trans (nested _ _)
  | disjunction legal few ih => exact (Nat.succ_le_succ (Filter.depthAll_le ih)).trans (nested _ _)
  | addresses side few known uncut => exact Nat.succ_le_succ (Nat.zero_le _)
  | ports side few small => exact Nat.succ_le_succ (Nat.zero_le _)
  | differential side plain zero few => exact Nat.succ_le_succ (Nat.zero_le _)
  | range side free known positive within => exact Nat.succ_le_succ (Nat.zero_le _)

/-- The text of a filter is read back as a whole. -/
theorem Filter.Legal.parseText_str (known : ∀ family, inetPton family [] = none)
    (legal : filter.Legal inetPton) : parseText filter.str = some (filter, []) := by
  have deep := legal.depth_le
  have rebuilt := legal.rebuilds known filter.str.length [letter '('] [] deep (Or.inr rfl) .nil
  rw [filter.str_eq] at rebuilt ⊢
  cases shape : filter.inner with
  | none => rwa [shape] at rebuilt
  | some body => rwa [shape] at rebuilt

end Reading

end Ucollect.Master
