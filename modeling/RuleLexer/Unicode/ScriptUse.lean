import RuleLexer.Unicode.CodeTable

/-! Characters that several scripts use, or another script than the one they belong to. -/
namespace RuleLexer.Unicode

/-- The codes of the scripts that use the characters of a table. -/
structure ScriptUse where
  codes : String
  table : CodeTable
deriving Repr

def scriptUses : List ScriptUse :=
  [⟨"Avst Cari Copt Dupl Elba Geor Glag Gong Goth Grek Hani Latn Lydi Mahj Perm Shaw",
    .ofText "B7"⟩,
   ⟨"Beng Cyrl Deva Latn Lisu Thai Toto", .ofText "2BC"⟩,
   ⟨"Bopo Latn", .ofText "2C7 2C9-2CB 2D9"⟩,
   ⟨"Latn Lisu", .ofText "2CD"⟩,
   ⟨"Latn Thai", .ofText "2D7"⟩,
   ⟨"Cher Copt Cyrl Grek Latn Perm Sunu Tale", .ofText "300"⟩,
   ⟨"Cher Cyrl Grek Latn Osge Sunu Tale Todr", .ofText "301"⟩,
   ⟨"Cher Cyrl Latn Tfng", .ofText "302"⟩,
   ⟨"Glag Latn Sunu Syrc Thai", .ofText "303"⟩,
   ⟨"Aghb Cher Copt Cyrl Goth Grek Latn Osge Syrc Tfng Todr", .ofText "304"⟩,
   ⟨"Copt Elba Glag Goth Kana Latn", .ofText "305"⟩,
   ⟨"Cyrl Grek Latn Perm Tfng", .ofText "306"⟩,
   ⟨"Copt Dupl Hebr Latn Perm Syrc Tale Tfng Todr", .ofText "307"⟩,
   ⟨"Armn Cyrl Dupl Goth Grek Hebr Latn Perm Syrc Tale Tfng", .ofText "308"⟩,
   ⟨"Latn Tfng", .ofText "309"⟩,
   ⟨"Dupl Latn Syrc", .ofText "30A"⟩,
   ⟨"Cher Cyrl Latn Osge", .ofText "30B"⟩,
   ⟨"Cher Latn Tale", .ofText "30C"⟩,
   ⟨"Latn Sunu", .ofText "30D 310"⟩,
   ⟨"Ethi Latn", .ofText "30E"⟩,
   ⟨"Cyrl Latn Todr", .ofText "311"⟩,
   ⟨"Grek Latn Perm Todr", .ofText "313"⟩,
   ⟨"Cher Dupl Kana Latn Syrc Tfng", .ofText "323"⟩,
   ⟨"Cher Dupl Latn Syrc", .ofText "324"⟩,
   ⟨"Latn Syrc", .ofText "325 32E"⟩,
   ⟨"Latn Sunu Syrc", .ofText "32D"⟩,
   ⟨"Cher Latn Syrc", .ofText "330"⟩,
   ⟨"Aghb Cher Goth Latn Sunu Syrc Thai", .ofText "331"⟩,
   ⟨"Grek", .ofText "342 345 1DC0-1DC1"⟩,
   ⟨"Latn Osge", .ofText "358"⟩,
   ⟨"Aghb Latn Todr", .ofText "35E"⟩,
   ⟨"Latn", .ofText "363-36F"⟩,
   ⟨"Copt Grek", .ofText "374-375"⟩,
   ⟨"Cyrl Perm", .ofText "483"⟩,
   ⟨"Cyrl Glag", .ofText "484 487 2E43 A66F"⟩,
   ⟨"Cyrl Latn", .ofText "485-486"⟩,
   ⟨"Armn Geor Glag", .ofText "589"⟩,
   ⟨"Arab Gara Nkoo Rohg Syrc Thaa Yezi", .ofText "60C 61B"⟩,
   ⟨"Arab Syrc Thaa", .ofText "61C"⟩,
   ⟨"Adlm Arab Gara Nkoo Rohg Syrc Thaa Yezi", .ofText "61F"⟩,
   ⟨"Adlm Arab Mand Mani Ougr Phlp Rohg Sogd Syrc", .ofText "640"⟩,
   ⟨"Arab Syrc", .ofText "64B-655 670"⟩,
   ⟨"Arab Thaa Yezi", .ofText "660-669"⟩,
   ⟨"Arab Rohg", .ofText "6D4"⟩,
   ⟨"Beng Deva Gran Gujr Guru Knda Latn Mlym Nand Newa Orya Shrd Taml Telu Tirh",
    .ofText "951"⟩,
   ⟨"Beng Deva Gran Gujr Guru Knda Latn Mlym Newa Orya Taml Telu Tirh", .ofText "952"⟩,
   ⟨"
    Beng Deva Dogr Gong Gonm Gran Gujr Guru Knda Mahj Mlym Nand Onao Orya Sind Sinh Sylo Takr
    Taml Telu Tirh",
    .ofText "964"⟩,
   ⟨"
    Beng Deva Dogr Gong Gonm Gran Gujr Gukh Guru Knda Limb Mahj Mlym Nand Onao Orya Sind Sinh
    Sylo Takr Taml Telu Tirh",
    .ofText "965"⟩,
   ⟨"Deva Dogr Kthi Mahj", .ofText "966-96F"⟩,
   ⟨"Beng Cakm Sylo", .ofText "9E6-9EF"⟩,
   ⟨"Guru Mult", .ofText "A66-A6F"⟩,
   ⟨"Gujr Khoj", .ofText "AE6-AEF"⟩,
   ⟨"Gran Taml", .ofText "BE6-BF3 11301 11303 1133B-1133C 11FD0-11FD1 11FD3"⟩,
   ⟨"Knda Nand Tutg", .ofText "CE6-CEF"⟩,
   ⟨"Cakm Mymr Tale", .ofText "1040-1049"⟩,
   ⟨"Geor Glag Latn", .ofText "10FB"⟩,
   ⟨"Runr", .ofText "16EB-16ED"⟩,
   ⟨"Buhd Hano Tagb Tglg", .ofText "1735-1736"⟩,
   ⟨"Mong Phag", .ofText "1802-1803 1805"⟩,
   ⟨"Beng Deva Gran Knda", .ofText "1CD0 1CD2"⟩,
   ⟨"Deva", .ofText "1CD1 1CD4 1CDB 1CDE-1CDF 1CE3-1CE8 1CEC 1CEE-1CF1"⟩,
   ⟨"Deva Gran Knda", .ofText "1CD3"⟩,
   ⟨"Beng Deva Newa Telu Tirh", .ofText "1CD5"⟩,
   ⟨"Beng Deva Telu", .ofText "1CD6"⟩,
   ⟨"Deva Newa Shrd", .ofText "1CD7"⟩,
   ⟨"Beng Deva Newa Telu", .ofText "1CD8"⟩,
   ⟨"Deva Shrd", .ofText "1CD9 1CDC-1CDD 1CE0"⟩,
   ⟨"Deva Knda Mlym Orya Taml Telu", .ofText "1CDA"⟩,
   ⟨"Beng Deva", .ofText "1CE1 1CF5-1CF6"⟩,
   ⟨"Deva Newa Tirh", .ofText "1CE2"⟩,
   ⟨"Deva Nand Newa", .ofText "1CE9"⟩,
   ⟨"Beng Deva Shrd", .ofText "1CEA"⟩,
   ⟨"Deva Newa", .ofText "1CEB"⟩,
   ⟨"Beng Deva Newa Shrd", .ofText "1CED"⟩,
   ⟨"Beng Deva Gran Knda Mlym Nand Orya Sinh Telu Tirh Tutg", .ofText "1CF2"⟩,
   ⟨"Deva Gran", .ofText "1CF3 1CF8-1CF9"⟩,
   ⟨"Deva Gran Knda Tutg", .ofText "1CF4"⟩,
   ⟨"Beng", .ofText "1CF7"⟩,
   ⟨"Nand", .ofText "1CFA"⟩,
   ⟨"Cyrl Latn Syrc", .ofText "1DF8"⟩,
   ⟨"Syrc", .ofText "1DFA"⟩,
   ⟨"Latn Mong Phag", .ofText "202F"⟩,
   ⟨"Adlm Arab", .ofText "204F"⟩,
   ⟨"Cari Geor Glag Hung Lyci Orkh", .ofText "205A"⟩,
   ⟨"Cari Grek Hung Mero", .ofText "205D"⟩,
   ⟨"Deva Gran Latn", .ofText "20F0"⟩,
   ⟨"Copt Latn", .ofText "2E17"⟩,
   ⟨"Avst Orkh", .ofText "2E30"⟩,
   ⟨"Avst Cari Geor Hung Kthi Lydi Samr", .ofText "2E31"⟩,
   ⟨"Dupl", .ofText "2E3C 1BCA0-1BCA3"⟩,
   ⟨"Adlm Arab Hung", .ofText "2E41"⟩,
   ⟨"Hani Tang", .ofText "2FF0-2FFF 31EF"⟩,
   ⟨"Bopo Hang Hani Hira Kana Mong Yiii", .ofText "3001"⟩,
   ⟨"Bopo Hang Hani Hira Kana Mong Phag Yiii", .ofText "3002"⟩,
   ⟨"Bopo Hang Hani Hira Kana", .ofText "3003 3013 301C-301F 3030 3037 FE45-FE46"⟩,
   ⟨"
    Hani",
    .ofText "
    3006 303E-303F 3190-319F 31C0-31E5 3220-3247 3280-32B0 32C0-32CB 32FF 3358-3370 337B-337F
    33E0-33FE 1D360-1D371 1F250-1F251"⟩,
   ⟨"Bopo Hang Hani Hira Kana Mong Tibt Yiii", .ofText "3008-3009"⟩,
   ⟨"Bopo Hang Hani Hira Kana Lisu Mong Tibt Yiii", .ofText "300A-300B"⟩,
   ⟨"Bopo Hang Hani Hira Kana Yiii", .ofText "300C-3011 3014-301B 30FB FF61-FF65"⟩,
   ⟨"Bopo Hani", .ofText "302A-302D"⟩,
   ⟨"Hira Kana", .ofText "3031-3035 3099-309C 30A0 30FC FF70 FF9E-FF9F"⟩,
   ⟨"Hani Hira Kana", .ofText "303C-303D"⟩,
   ⟨"Hani Latn", .ofText "A700-A707"⟩,
   ⟨"Deva Dogr Gujr Guru Khoj Knda Kthi Mahj Mlym Modi Nand Shrd Sind Takr Tirh Tutg",
    .ofText "A830-A832"⟩,
   ⟨"Deva Dogr Gujr Guru Khoj Knda Kthi Mahj Modi Nand Shrd Sind Takr Tirh Tutg",
    .ofText "A833-A835"⟩,
   ⟨"Deva Dogr Gujr Guru Khoj Kthi Mahj Modi Sind Takr Tirh", .ofText "A836-A837 A839"⟩,
   ⟨"Deva Dogr Gujr Guru Khoj Kthi Mahj Modi Shrd Sind Takr Tirh", .ofText "A838"⟩,
   ⟨"Beng Deva Tutg", .ofText "A8F1"⟩,
   ⟨"Deva Taml", .ofText "A8F3"⟩,
   ⟨"Kali Latn Mymr", .ofText "A92E"⟩,
   ⟨"Bugi Java", .ofText "A9CF"⟩,
   ⟨"Arab Nkoo", .ofText "FD3E-FD3F"⟩,
   ⟨"Arab Thaa", .ofText "FDF2 FDFD"⟩,
   ⟨"Cpmn Cprt Linb", .ofText "10100-10101"⟩,
   ⟨"Cprt Linb", .ofText "10102 10137-1013F"⟩,
   ⟨"Cprt Lina Linb", .ofText "10107-10133"⟩,
   ⟨"Arab Copt", .ofText "102E0-102FB"⟩,
   ⟨"Mani Ougr", .ofText "10AF2"⟩]

end RuleLexer.Unicode
