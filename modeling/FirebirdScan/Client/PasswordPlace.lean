import FirebirdScan.Client.ConnectionInfo

/-!
# `Client.PasswordPlace` — where a connection string holds its password

A URL has it in its userinfo or in its query, a list of items in an item. The parser reads it from one of these
places or, if it finds none, leaves the default (`parse_passwordPlace`).
-/

namespace FirebirdScan

open Delimited FirebirdConnectionInfo

/-- A place for a password, with the text around it. -/
inductive PasswordPlace where
  | userinfo (user rest : Bytes)
  | query (before after : Bytes)
  | item (before after : Bytes)
deriving DecidableEq

namespace PasswordPlace

/-- The connection string, with `pw` in the place. -/
def text : PasswordPlace → Bytes → Bytes
  | .userinfo user rest, pw => scheme ++ (user ++ 0x3A :: (pw ++ 0x40 :: rest))
  | .query before after, pw => scheme ++ (before ++ (utf8 "password=" ++ (pw ++ after)))
  | .item before after, pw => before ++ (utf8 "password=" ++ (pw ++ after))

/-- The password it stands for. -/
def password : PasswordPlace → Bytes → Bytes
  | .userinfo _ _, pw => urlDecode pw
  | .query _ _, pw => urlDecode pw
  | .item _ _, pw => pw

end PasswordPlace

/-! ## The parser -/

namespace FirebirdConnectionInfo

variable {info info' : FirebirdConnectionInfo} {key val kv : Bytes}

theorem setOption_password (h : info.setOption key val = .ok info') :
    info'.password = info.password ∨ (key = utf8 "password" ∧ info'.password = val) := by
  unfold setOption at h
  split_ifs at h with hcharset hrole hdialect huser hpassword hencoding hpushdown
  iterate 4 · exact .inl (by rw [← Except.ok.inj h])
  · exact .inr ⟨hpassword, by rw [← Except.ok.inj h]⟩
  · exact .inl (by rw [← Except.ok.inj h])
  · -- the one option whose value is checked
    rcases hbool : parseConnStringBool key val with e | b
    · rw [hbool] at h
      cases h
    · rw [hbool] at h
      exact .inl (by rw [← Except.ok.inj h])
  · exact .inl (by rw [← Except.ok.inj h])

/-- The key of a password, in front of it. -/
theorem password_key (val : Bytes) : utf8 "password" ++ 0x3D :: val = utf8 "password=" ++ val := rfl

theorem setQueryItem_password (h : setQueryItem info kv = .ok info') :
    info'.password = info.password ∨ ∃ pw, kv = utf8 "password=" ++ pw ∧ info'.password = urlDecode pw := by
  unfold setQueryItem at h
  rcases hsplit : splitFirst 0x3D kv with _ | ⟨key, val⟩
  · rw [hsplit] at h
    exact .inl (by rw [← Except.ok.inj h])
  · rw [hsplit] at h
    obtain ⟨-, hkv⟩ := splitFirst_eq_some.mp hsplit
    rcases setOption_password h with hsame | ⟨rfl, hval⟩
    · exact .inl hsame
    · exact .inr ⟨val, by rw [hkv, password_key], hval⟩

theorem setItem_password (h : setItem info kv = .ok info') :
    info'.password = info.password ∨
      ∃ before pw after, kv = before ++ (utf8 "password=" ++ (pw ++ after)) ∧ info'.password = pw := by
  unfold setItem at h
  rcases hsplit : splitFirst 0x3D kv with _ | ⟨key, val⟩
  · rw [hsplit] at h
    exact .inl (by rw [← Except.ok.inj h])
  · rw [hsplit] at h
    obtain ⟨-, hkv⟩ := splitFirst_eq_some.mp hsplit
    dsimp only at h
    split_ifs at h
    · exact .inl (by rw [← Except.ok.inj h])
    · rcases setOption_password h with hsame | ⟨hkey, hval⟩
      · exact .inl hsame
      · refine .inr ⟨key.takeWhile isBlank, val.rdropWhile isBlank, val.rtakeWhile isBlank, ?_, hval⟩
        rw [List.rdropWhile_append_rtakeWhile, ← password_key, ← List.append_assoc, ← hkey,
          List.takeWhile_append_dropWhile, hkv]

/-- Both parsers: the password is left as it is, or an item sets it. -/
theorem foldlM_password {set : FirebirdConnectionInfo → Bytes → Except InvalidInput FirebirdConnectionInfo}
    {items : List Bytes} (h : items.foldlM set info = .ok info') :
    info'.password = info.password ∨
      ∃ kv ∈ items, ∃ i j, set i kv = .ok j ∧ j.password ≠ i.password ∧ j.password = info'.password := by
  induction items generalizing info with
  | nil => exact .inl (by rw [← Except.ok.inj h])
  | cons kv items ih =>
      rw [List.foldlM_cons] at h
      rcases hset : set info kv with e | next
      · rw [hset] at h
        cases h
      · rw [hset] at h
        rcases ih h with hsame | ⟨kv', hmem, i, j, hset', hne, heq⟩
        · by_cases hnext : next.password = info.password
          · exact .inl (hsame.trans hnext)
          · exact .inr ⟨kv, List.mem_cons_self, info, next, hset, hnext, hsame.symm⟩
        · exact .inr ⟨kv', List.mem_cons_of_mem _ hmem, i, j, hset', hne, heq⟩

/-- The part of a URL in front of the query. -/
theorem parseLocation_password (rest : Bytes) :
    (parseLocation rest).password = utf8 "masterkey" ∨
      ∃ user pw rest', rest = user ++ 0x3A :: (pw ++ 0x40 :: rest') ∧ (parseLocation rest).password = urlDecode pw := by
  unfold parseLocation setUserinfo
  rcases hsplit : splitFirst 0x40 rest with _ | ⟨userinfo, rest'⟩
  · exact .inl rfl
  · obtain ⟨-, hrest⟩ := splitFirst_eq_some.mp hsplit
    dsimp only [Option.getD_some]
    split_ifs
    · exact .inl rfl
    · rcases huserinfo : splitFirst 0x3A userinfo with _ | ⟨user, pw⟩
      · exact .inl rfl
      · obtain ⟨-, huser⟩ := splitFirst_eq_some.mp huserinfo
        refine .inr ⟨user, pw, rest', ?_, rfl⟩
        rw [hrest, huser, List.append_assoc, List.cons_append]

theorem parseUrl_passwordPlace {rest : Bytes} (h : parseUrl rest = .ok info) :
    info.password = utf8 "masterkey" ∨
      ∃ (place : PasswordPlace) (pw : Bytes), scheme ++ rest = place.text pw ∧ info.password = place.password pw := by
  unfold parseUrl at h
  obtain ⟨location, query, hget, htail⟩ : ∃ location query,
      (splitFirst 0x3F rest).getD (rest, []) = (location, query) ∧
        (query = [] ∧ rest = location ∨ rest = location ++ 0x3F :: query) := by
    rcases hsplit : splitFirst 0x3F rest with _ | ⟨location, query⟩
    · exact ⟨rest, [], rfl, .inl ⟨rfl, rfl⟩⟩
    · exact ⟨location, query, rfl, .inr (splitFirst_eq_some.mp hsplit).2⟩
  rw [hget] at h
  dsimp only at h
  rcases foldlM_password h with hsame | ⟨kv, hmem, i, j, hset, hne, heq⟩
  · rcases parseLocation_password location with hdefault | ⟨user, pw, rest', hlocation, hpw⟩
    · exact .inl (hsame.trans hdefault)
    · obtain ⟨tail, hrest⟩ : ∃ tail, rest = location ++ tail := by
        rcases htail with ⟨-, hrest⟩ | hrest
        · exact ⟨[], by rw [hrest, List.append_nil]⟩
        · exact ⟨_, hrest⟩
      refine .inr ⟨.userinfo user (rest' ++ tail), pw, ?_, hsame.trans hpw⟩
      simp only [PasswordPlace.text, hrest, hlocation, List.append_assoc, List.cons_append]
  · rcases setQueryItem_password hset with hsame | ⟨pw, hkv, hpw⟩
    · exact absurd hsame hne
    · obtain ⟨before, after, rfl⟩ := mem_lines_infix hmem
      rcases htail with ⟨hnil, -⟩ | hrest
      · rw [hnil] at hmem
        cases hmem
      · refine .inr ⟨.query (location ++ 0x3F :: before) after, pw, ?_, heq.symm.trans hpw⟩
        simp only [PasswordPlace.text, hrest, hkv, List.append_assoc, List.cons_append]

theorem parseItems_passwordPlace {connStr : Bytes} (h : parseItems connStr = .ok info) :
    info.password = utf8 "masterkey" ∨
      ∃ (place : PasswordPlace) (pw : Bytes), connStr = place.text pw ∧ info.password = place.password pw := by
  rcases foldlM_password h with hsame | ⟨kv, hmem, i, j, hset, hne, heq⟩
  · exact .inl hsame
  · rcases setItem_password hset with hsame | ⟨before, pw, after, hkv, hpw⟩
    · exact absurd hsame hne
    · obtain ⟨before', after', hconn⟩ := mem_lines_infix hmem
      refine .inr ⟨.item (before' ++ before) (after ++ after'), pw, ?_, heq.symm.trans hpw⟩
      simp only [PasswordPlace.text, ← hconn, hkv, List.append_assoc]

/-- **Where the password is.** What the parser takes for the password is the default, or stands in a place. -/
theorem parse_passwordPlace {connStr : Bytes} (h : parse connStr = .ok info) :
    info.password = utf8 "masterkey" ∨
      ∃ (place : PasswordPlace) (pw : Bytes), connStr = place.text pw ∧ info.password = place.password pw := by
  unfold parse at h
  split_ifs at h with hscheme hitems
  · obtain ⟨rest, rfl⟩ := hscheme
    rw [List.drop_left] at h
    exact parseUrl_passwordPlace h
  · exact parseItems_passwordPlace h
  · exact .inl (by rw [← Except.ok.inj h])

end FirebirdConnectionInfo

end FirebirdScan
