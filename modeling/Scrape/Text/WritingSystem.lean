import Scrape.Text.Runs

/-!
# Text — Writing system

The script that each character belongs to, by its long name.
-/

namespace Scrape.Text

/-- The scripts of the characters as runs. -/
def writingSystemRuns : Runs String := Runs.ofNames [
    "Common65 Latin26 Common6 Latin26 Common47 Latin1 Common15 Latin1 Common5 Latin23 Common1 ",
    "Latin31 Common1 Latin449 Common39 Latin5 Common5 Bopomofo2 Common20 Inherited112 Greek4 ",
    "Common1 Greek3 Unknown2 Greek4 Common1 Greek1 Unknown4 Greek1 Common1 Greek1 Common1 ",
    "Greek3 Unknown1 Greek1 Unknown1 Greek20 Unknown1 Greek63 Coptic14 Greek16 Cyrillic133 ",
    "Inherited2 Cyrillic169 Unknown1 Armenian38 Unknown2 Armenian50 Unknown2 Armenian3 ",
    "Unknown1 Hebrew55 Unknown8 Hebrew27 Unknown4 Hebrew6 Unknown11 Arabic5 Common1 Arabic6 ",
    "Common1 Arabic14 Common1 Arabic3 Common1 Arabic32 Common1 Arabic10 Inherited11 Arabic26 ",
    "Inherited1 Arabic108 Common1 Arabic34 Syriac14 Unknown1 Syriac60 Unknown2 Syriac3 ",
    "Arabic48 Thaana50 Unknown14 Nko59 Unknown2 Nko3 Samaritan46 Unknown2 Samaritan15 Unknown1 ",
    "Mandaic28 Unknown2 Mandaic1 Unknown1 Syriac11 Unknown5 Arabic34 Unknown5 Arabic75 Common1 ",
    "Arabic29 Devanagari81 Inherited4 Devanagari15 Common2 Devanagari26 Bengali4 Unknown1 ",
    "Bengali8 Unknown2 Bengali2 Unknown2 Bengali22 Unknown1 Bengali7 Unknown1 Bengali1 ",
    "Unknown3 Bengali4 Unknown2 Bengali9 Unknown2 Bengali2 Unknown2 Bengali4 Unknown8 Bengali1 ",
    "Unknown4 Bengali2 Unknown1 Bengali5 Unknown2 Bengali25 Unknown2 Gurmukhi3 Unknown1 ",
    "Gurmukhi6 Unknown4 Gurmukhi2 Unknown2 Gurmukhi22 Unknown1 Gurmukhi7 Unknown1 Gurmukhi2 ",
    "Unknown1 Gurmukhi2 Unknown1 Gurmukhi2 Unknown2 Gurmukhi1 Unknown1 Gurmukhi5 Unknown4 ",
    "Gurmukhi2 Unknown2 Gurmukhi3 Unknown3 Gurmukhi1 Unknown7 Gurmukhi4 Unknown1 Gurmukhi1 ",
    "Unknown7 Gurmukhi17 Unknown10 Gujarati3 Unknown1 Gujarati9 Unknown1 Gujarati3 Unknown1 ",
    "Gujarati22 Unknown1 Gujarati7 Unknown1 Gujarati2 Unknown1 Gujarati5 Unknown2 Gujarati10 ",
    "Unknown1 Gujarati3 Unknown1 Gujarati3 Unknown2 Gujarati1 Unknown15 Gujarati4 Unknown2 ",
    "Gujarati12 Unknown7 Gujarati7 Unknown1 Oriya3 Unknown1 Oriya8 Unknown2 Oriya2 Unknown2 ",
    "Oriya22 Unknown1 Oriya7 Unknown1 Oriya2 Unknown1 Oriya5 Unknown2 Oriya9 Unknown2 Oriya2 ",
    "Unknown2 Oriya3 Unknown7 Oriya3 Unknown4 Oriya2 Unknown1 Oriya5 Unknown2 Oriya18 ",
    "Unknown10 Tamil2 Unknown1 Tamil6 Unknown3 Tamil3 Unknown1 Tamil4 Unknown3 Tamil2 Unknown1 ",
    "Tamil1 Unknown1 Tamil2 Unknown3 Tamil2 Unknown3 Tamil3 Unknown3 Tamil12 Unknown4 Tamil5 ",
    "Unknown3 Tamil3 Unknown1 Tamil4 Unknown2 Tamil1 Unknown6 Tamil1 Unknown14 Tamil21 ",
    "Unknown5 Telugu13 Unknown1 Telugu3 Unknown1 Telugu23 Unknown1 Telugu16 Unknown2 Telugu9 ",
    "Unknown1 Telugu3 Unknown1 Telugu4 Unknown7 Telugu2 Unknown1 Telugu3 Unknown1 Telugu2 ",
    "Unknown2 Telugu4 Unknown2 Telugu10 Unknown7 Telugu9 Kannada13 Unknown1 Kannada3 Unknown1 ",
    "Kannada23 Unknown1 Kannada10 Unknown1 Kannada5 Unknown2 Kannada9 Unknown1 Kannada3 ",
    "Unknown1 Kannada4 Unknown7 Kannada2 Unknown5 Kannada3 Unknown1 Kannada4 Unknown2 ",
    "Kannada10 Unknown1 Kannada3 Unknown12 Malayalam13 Unknown1 Malayalam3 Unknown1 ",
    "Malayalam51 Unknown1 Malayalam3 Unknown1 Malayalam6 Unknown4 Malayalam16 Unknown2 ",
    "Malayalam26 Unknown1 Sinhala3 Unknown1 Sinhala18 Unknown3 Sinhala24 Unknown1 Sinhala9 ",
    "Unknown1 Sinhala1 Unknown2 Sinhala7 Unknown3 Sinhala1 Unknown4 Sinhala6 Unknown1 Sinhala1 ",
    "Unknown1 Sinhala8 Unknown6 Sinhala10 Unknown2 Sinhala3 Unknown12 Thai58 Unknown4 Common1 ",
    "Thai28 Unknown37 Lao2 Unknown1 Lao1 Unknown1 Lao5 Unknown1 Lao24 Unknown1 Lao1 Unknown1 ",
    "Lao23 Unknown2 Lao5 Unknown1 Lao1 Unknown1 Lao7 Unknown1 Lao10 Unknown2 Lao4 Unknown32 ",
    "Tibetan72 Unknown1 Tibetan36 Unknown4 Tibetan39 Unknown1 Tibetan36 Unknown1 Tibetan15 ",
    "Unknown1 Tibetan7 Common4 Tibetan2 Unknown37 Myanmar160 Georgian38 Unknown1 Georgian1 ",
    "Unknown5 Georgian1 Unknown2 Georgian43 Common1 Georgian4 Hangul256 Ethiopic73 Unknown1 ",
    "Ethiopic4 Unknown2 Ethiopic7 Unknown1 Ethiopic1 Unknown1 Ethiopic4 Unknown2 Ethiopic41 ",
    "Unknown1 Ethiopic4 Unknown2 Ethiopic33 Unknown1 Ethiopic4 Unknown2 Ethiopic7 Unknown1 ",
    "Ethiopic1 Unknown1 Ethiopic4 Unknown2 Ethiopic15 Unknown1 Ethiopic57 Unknown1 Ethiopic4 ",
    "Unknown2 Ethiopic67 Unknown2 Ethiopic32 Unknown3 Ethiopic26 Unknown6 Cherokee86 Unknown2 ",
    "Cherokee6 Unknown2 Canadian_Aboriginal640 Ogham29 Unknown3 Runic75 Common3 Runic11 ",
    "Unknown7 Tagalog22 Unknown9 Tagalog1 Hanunoo21 Common2 Unknown9 Buhid20 Unknown12 ",
    "Tagbanwa13 Unknown1 Tagbanwa3 Unknown1 Tagbanwa2 Unknown12 Khmer94 Unknown2 Khmer10 ",
    "Unknown6 Khmer10 Unknown6 Mongolian2 Common2 Mongolian1 Common1 Mongolian20 Unknown6 ",
    "Mongolian89 Unknown7 Mongolian43 Unknown5 Canadian_Aboriginal70 Unknown10 Limbu31 ",
    "Unknown1 Limbu12 Unknown4 Limbu12 Unknown4 Limbu1 Unknown3 Limbu12 Tai_Le30 Unknown2 ",
    "Tai_Le5 Unknown11 New_Tai_Lue44 Unknown4 New_Tai_Lue26 Unknown6 New_Tai_Lue11 Unknown3 ",
    "New_Tai_Lue2 Khmer32 Buginese28 Unknown2 Buginese2 Tai_Tham63 Unknown1 Tai_Tham29 ",
    "Unknown2 Tai_Tham11 Unknown6 Tai_Tham10 Unknown6 Tai_Tham14 Unknown2 Inherited46 Unknown2 ",
    "Inherited12 Unknown20 Balinese77 Unknown1 Balinese50 Sundanese64 Batak52 Unknown8 Batak4 ",
    "Lepcha56 Unknown3 Lepcha15 Unknown3 Lepcha3 Ol_Chiki48 Cyrillic11 Unknown5 Georgian43 ",
    "Unknown2 Georgian3 Sundanese8 Unknown8 Inherited3 Common1 Inherited13 Common1 Inherited7 ",
    "Common4 Inherited1 Common6 Inherited1 Common3 Inherited2 Common1 Unknown5 Latin38 Greek5 ",
    "Cyrillic1 Latin49 Greek5 Latin4 Greek5 Latin13 Cyrillic1 Latin70 Greek1 Inherited64 ",
    "Latin256 Greek22 Unknown2 Greek6 Unknown2 Greek38 Unknown2 Greek6 Unknown2 Greek8 ",
    "Unknown1 Greek1 Unknown1 Greek1 Unknown1 Greek1 Unknown1 Greek31 Unknown2 Greek53 ",
    "Unknown1 Greek15 Unknown1 Greek14 Unknown2 Greek6 Unknown1 Greek19 Unknown2 Greek3 ",
    "Unknown1 Greek9 Unknown1 Common12 Inherited2 Common87 Unknown1 Common11 Latin1 Unknown2 ",
    "Common11 Latin1 Common15 Unknown1 Latin13 Unknown3 Common34 Unknown14 Inherited33 ",
    "Unknown15 Common38 Greek1 Common3 Latin2 Common6 Latin1 Common27 Latin1 Common17 Latin41 ",
    "Common3 Unknown4 Common666 Unknown22 Common11 Unknown21 Common928 Braille256 Common628 ",
    "Unknown2 Common138 Glagolitic96 Latin32 Coptic116 Unknown5 Coptic7 Georgian38 Unknown1 ",
    "Georgian1 Unknown5 Georgian1 Unknown2 Tifinagh56 Unknown7 Tifinagh2 Unknown14 Tifinagh1 ",
    "Ethiopic23 Unknown9 Ethiopic7 Unknown1 Ethiopic7 Unknown1 Ethiopic7 Unknown1 Ethiopic7 ",
    "Unknown1 Ethiopic7 Unknown1 Ethiopic7 Unknown1 Ethiopic7 Unknown1 Ethiopic7 Unknown1 ",
    "Cyrillic32 Common94 Unknown34 Han26 Unknown1 Han89 Unknown12 Han214 Unknown26 Common21 ",
    "Han1 Common1 Han1 Common25 Han9 Inherited4 Hangul2 Common8 Han4 Common4 Unknown1 ",
    "Hiragana86 Unknown2 Inherited2 Common2 Hiragana3 Common1 Katakana90 Common2 Katakana3 ",
    "Unknown5 Bopomofo43 Unknown1 Hangul94 Unknown1 Common16 Bopomofo32 Common38 Unknown9 ",
    "Common1 Katakana16 Hangul31 Unknown1 Common64 Hangul31 Common81 Katakana47 Common1 ",
    "Katakana88 Common168 Han6592 Common64 Han20992 Yi1165 Unknown3 Yi55 Unknown9 Lisu48 ",
    "Vai300 Unknown20 Cyrillic96 Bamum88 Unknown8 Common34 Latin102 Common3 Latin82 Unknown20 ",
    "Latin15 Syloti_Nagri45 Unknown3 Common10 Unknown6 Phags_Pa56 Unknown8 Saurashtra70 ",
    "Unknown8 Saurashtra12 Unknown6 Devanagari32 Kayah_Li46 Common1 Kayah_Li1 Rejang36 ",
    "Unknown11 Rejang1 Hangul29 Unknown3 Javanese78 Unknown1 Common1 Javanese10 Unknown4 ",
    "Javanese2 Myanmar31 Unknown1 Cham55 Unknown9 Cham14 Unknown2 Cham10 Unknown2 Cham4 ",
    "Myanmar32 Tai_Viet67 Unknown24 Tai_Viet5 Meetei_Mayek23 Unknown10 Ethiopic6 Unknown2 ",
    "Ethiopic6 Unknown2 Ethiopic6 Unknown9 Ethiopic7 Unknown1 Ethiopic7 Unknown1 Latin43 ",
    "Common1 Latin9 Greek1 Latin4 Common2 Unknown4 Cherokee80 Meetei_Mayek46 Unknown2 ",
    "Meetei_Mayek10 Unknown6 Hangul11172 Unknown12 Hangul23 Unknown4 Hangul49 Unknown8452 ",
    "Han366 Unknown2 Han106 Unknown38 Latin7 Unknown12 Armenian5 Unknown5 Hebrew26 Unknown1 ",
    "Hebrew5 Unknown1 Hebrew1 Unknown1 Hebrew2 Unknown1 Hebrew2 Unknown1 Hebrew10 Arabic494 ",
    "Common2 Arabic144 Unknown32 Arabic16 Inherited16 Common10 Unknown6 Inherited14 Cyrillic2 ",
    "Common35 Unknown1 Common19 Unknown1 Common4 Unknown4 Arabic5 Unknown1 Arabic135 Unknown2 ",
    "Common1 Unknown1 Common32 Latin26 Common6 Latin26 Common11 Katakana10 Common1 Katakana45 ",
    "Common2 Hangul31 Unknown3 Hangul6 Unknown2 Hangul6 Unknown2 Hangul6 Unknown2 Hangul3 ",
    "Unknown3 Common7 Unknown1 Common7 Unknown10 Common5 Unknown2 Linear_B12 Unknown1 ",
    "Linear_B26 Unknown1 Linear_B19 Unknown1 Linear_B2 Unknown1 Linear_B15 Unknown2 Linear_B14 ",
    "Unknown34 Linear_B123 Unknown5 Common3 Unknown4 Common45 Unknown3 Common9 Greek79 ",
    "Unknown1 Common13 Unknown3 Greek1 Unknown47 Common45 Inherited1 Unknown130 Lycian29 ",
    "Unknown3 Carian49 Unknown15 Inherited1 Common27 Unknown4 Old_Italic36 Unknown9 ",
    "Old_Italic3 Gothic27 Unknown5 Old_Permic43 Unknown5 Ugaritic30 Unknown1 Ugaritic1 ",
    "Old_Persian36 Unknown4 Old_Persian14 Unknown42 Deseret80 Shavian48 Osmanya30 Unknown2 ",
    "Osmanya10 Unknown6 Osage36 Unknown4 Osage36 Unknown4 Elbasan40 Unknown8 ",
    "Caucasian_Albanian52 Unknown11 Caucasian_Albanian1 Vithkuqi11 Unknown1 Vithkuqi15 ",
    "Unknown1 Vithkuqi7 Unknown1 Vithkuqi2 Unknown1 Vithkuqi11 Unknown1 Vithkuqi15 Unknown1 ",
    "Vithkuqi7 Unknown1 Vithkuqi2 Unknown3 Todhri52 Unknown12 Linear_A311 Unknown9 Linear_A22 ",
    "Unknown10 Linear_A8 Unknown24 Latin6 Unknown1 Latin42 Unknown1 Latin9 Unknown69 Cypriot6 ",
    "Unknown2 Cypriot1 Unknown1 Cypriot44 Unknown1 Cypriot2 Unknown3 Cypriot1 Unknown2 ",
    "Cypriot1 Imperial_Aramaic22 Unknown1 Imperial_Aramaic9 Palmyrene32 Nabataean31 Unknown8 ",
    "Nabataean9 Unknown48 Hatran19 Unknown1 Hatran2 Unknown5 Hatran5 Phoenician28 Unknown3 ",
    "Phoenician1 Lydian26 Unknown5 Lydian1 Sidetic26 Unknown38 Meroitic_Hieroglyphs32 ",
    "Meroitic_Cursive24 Unknown4 Meroitic_Cursive20 Unknown2 Meroitic_Cursive46 Kharoshthi4 ",
    "Unknown1 Kharoshthi2 Unknown5 Kharoshthi8 Unknown1 Kharoshthi3 Unknown1 Kharoshthi29 ",
    "Unknown2 Kharoshthi3 Unknown4 Kharoshthi10 Unknown7 Kharoshthi9 Unknown7 ",
    "Old_South_Arabian32 Old_North_Arabian32 Unknown32 Manichaean39 Unknown4 Manichaean12 ",
    "Unknown9 Avestan54 Unknown3 Avestan7 Inscriptional_Parthian22 Unknown2 ",
    "Inscriptional_Parthian8 Inscriptional_Pahlavi19 Unknown5 Inscriptional_Pahlavi8 ",
    "Psalter_Pahlavi18 Unknown7 Psalter_Pahlavi4 Unknown12 Psalter_Pahlavi7 Unknown80 ",
    "Old_Turkic73 Unknown55 Old_Hungarian51 Unknown13 Old_Hungarian51 Unknown7 Old_Hungarian6 ",
    "Hanifi_Rohingya40 Unknown8 Hanifi_Rohingya10 Unknown6 Garay38 Unknown3 Garay29 Unknown8 ",
    "Garay2 Unknown208 Arabic31 Unknown1 Yezidi42 Unknown1 Yezidi3 Unknown2 Yezidi2 Unknown16 ",
    "Arabic6 Unknown8 Arabic9 Unknown33 Arabic6 Old_Sogdian40 Unknown8 Sogdian42 Unknown22 ",
    "Old_Uyghur26 Unknown38 Chorasmian28 Unknown20 Elymaic23 Unknown9 Brahmi78 Unknown4 ",
    "Brahmi36 Unknown9 Brahmi1 Kaithi67 Unknown10 Kaithi1 Unknown2 Sora_Sompeng25 Unknown7 ",
    "Sora_Sompeng10 Unknown6 Chakma53 Unknown1 Chakma18 Unknown8 Mahajani39 Unknown9 Sharada96 ",
    "Unknown1 Sinhala20 Unknown11 Khojki18 Unknown1 Khojki47 Unknown62 Multani7 Unknown1 ",
    "Multani1 Unknown1 Multani4 Unknown1 Multani15 Unknown1 Multani11 Unknown6 Khudawadi59 ",
    "Unknown5 Khudawadi10 Unknown6 Grantha4 Unknown1 Grantha8 Unknown2 Grantha2 Unknown2 ",
    "Grantha22 Unknown1 Grantha7 Unknown1 Grantha2 Unknown1 Grantha5 Unknown1 Inherited1 ",
    "Grantha9 Unknown2 Grantha2 Unknown2 Grantha3 Unknown2 Grantha1 Unknown6 Grantha1 Unknown5 ",
    "Grantha7 Unknown2 Grantha7 Unknown3 Grantha5 Unknown11 Tulu_Tigalari10 Unknown1 ",
    "Tulu_Tigalari1 Unknown2 Tulu_Tigalari1 Unknown1 Tulu_Tigalari38 Unknown1 Tulu_Tigalari10 ",
    "Unknown1 Tulu_Tigalari1 Unknown2 Tulu_Tigalari1 Unknown1 Tulu_Tigalari4 Unknown1 ",
    "Tulu_Tigalari10 Unknown1 Tulu_Tigalari2 Unknown8 Tulu_Tigalari2 Unknown29 Newa92 Unknown1 ",
    "Newa5 Unknown30 Tirhuta72 Unknown8 Tirhuta10 Unknown166 Siddham54 Unknown2 Siddham38 ",
    "Unknown34 Modi69 Unknown11 Modi10 Unknown6 Mongolian13 Unknown19 Takri58 Unknown6 Takri10 ",
    "Unknown6 Myanmar20 Unknown28 Ahom27 Unknown2 Ahom15 Unknown4 Ahom23 Unknown185 Dogra60 ",
    "Unknown100 Warang_Citi83 Unknown12 Warang_Citi1 Dives_Akuru7 Unknown2 Dives_Akuru1 ",
    "Unknown2 Dives_Akuru8 Unknown1 Dives_Akuru2 Unknown1 Dives_Akuru30 Unknown1 Dives_Akuru2 ",
    "Unknown2 Dives_Akuru12 Unknown9 Dives_Akuru10 Unknown70 Nandinagari8 Unknown2 ",
    "Nandinagari46 Unknown2 Nandinagari11 Unknown27 Zanabazar_Square72 Unknown8 Soyombo83 ",
    "Unknown13 Canadian_Aboriginal16 Pau_Cin_Hau57 Unknown7 Devanagari10 Unknown86 Sharada8 ",
    "Unknown88 Sunuwar34 Unknown14 Sunuwar10 Unknown6 Bhaiksuki9 Unknown1 Bhaiksuki45 Unknown1 ",
    "Bhaiksuki14 Unknown10 Bhaiksuki29 Unknown3 Marchen32 Unknown2 Marchen22 Unknown1 ",
    "Marchen14 Unknown73 Masaram_Gondi7 Unknown1 Masaram_Gondi2 Unknown1 Masaram_Gondi44 ",
    "Unknown3 Masaram_Gondi1 Unknown1 Masaram_Gondi2 Unknown1 Masaram_Gondi9 Unknown8 ",
    "Masaram_Gondi10 Unknown6 Gunjala_Gondi6 Unknown1 Gunjala_Gondi2 Unknown1 Gunjala_Gondi37 ",
    "Unknown1 Gunjala_Gondi2 Unknown1 Gunjala_Gondi6 Unknown7 Gunjala_Gondi10 Unknown6 ",
    "Tolong_Siki44 Unknown4 Tolong_Siki10 Unknown246 Makasar25 Unknown7 Kawi17 Unknown1 Kawi41 ",
    "Unknown3 Kawi29 Unknown85 Lisu1 Unknown15 Tamil50 Unknown13 Tamil1 Cuneiform922 ",
    "Unknown102 Cuneiform111 Unknown1 Cuneiform5 Unknown11 Cuneiform196 Unknown2636 ",
    "Cypro_Minoan99 Unknown13 Egyptian_Hieroglyphs1110 Unknown10 Egyptian_Hieroglyphs3995 ",
    "Unknown5 Anatolian_Hieroglyphs583 Unknown6841 Gurung_Khema58 Unknown1734 Bamum569 ",
    "Unknown7 Mro31 Unknown1 Mro10 Unknown4 Mro2 Tangsa79 Unknown1 Tangsa10 Unknown6 ",
    "Bassa_Vah30 Unknown2 Bassa_Vah6 Unknown10 Pahawh_Hmong70 Unknown10 Pahawh_Hmong10 ",
    "Unknown1 Pahawh_Hmong7 Unknown1 Pahawh_Hmong21 Unknown5 Pahawh_Hmong19 Unknown432 ",
    "Kirat_Rai58 Unknown198 Medefaidrin91 Unknown5 Beria_Erfe25 Unknown2 Beria_Erfe25 ",
    "Unknown44 Miao75 Unknown4 Miao57 Unknown7 Miao17 Unknown64 Tangut1 Nushu1 Han2 ",
    "Khitan_Small_Script1 Unknown11 Han7 Unknown9 Tangut6912 Khitan_Small_Script470 Unknown41 ",
    "Khitan_Small_Script1 Tangut31 Unknown97 Tangut115 Unknown8701 Katakana4 Unknown1 ",
    "Katakana7 Unknown1 Katakana2 Unknown1 Katakana1 Hiragana287 Katakana3 Unknown15 Hiragana1 ",
    "Unknown29 Hiragana3 Unknown2 Katakana1 Unknown14 Katakana4 Unknown8 Nushu396 Unknown2308 ",
    "Duployan107 Unknown5 Duployan13 Unknown3 Duployan9 Unknown7 Duployan10 Unknown2 Duployan4 ",
    "Common4 Unknown3932 Common253 Unknown3 Common436 Unknown6 Common23 Unknown15 Common17 ",
    "Unknown15 Inherited46 Unknown2 Inherited23 Unknown9 Common116 Unknown60 Common246 ",
    "Unknown10 Common39 Unknown2 Common62 Inherited3 Common17 Inherited8 Common2 Inherited7 ",
    "Common30 Inherited4 Common61 Unknown21 Greek70 Unknown122 Common20 Unknown12 Common20 ",
    "Unknown12 Common87 Unknown9 Common25 Unknown135 Common85 Unknown1 Common71 Unknown1 ",
    "Common2 Unknown2 Common1 Unknown2 Common2 Unknown2 Common4 Unknown1 Common12 Unknown1 ",
    "Common1 Unknown1 Common7 Unknown1 Common65 Unknown1 Common4 Unknown2 Common8 Unknown1 ",
    "Common7 Unknown1 Common28 Unknown1 Common4 Unknown1 Common5 Unknown1 Common1 Unknown3 ",
    "Common7 Unknown1 Common340 Unknown2 Common292 Unknown2 Common50 SignWriting652 Unknown15 ",
    "SignWriting5 Unknown1 SignWriting15 Unknown1104 Latin31 Unknown6 Latin6 Unknown213 ",
    "Glagolitic7 Unknown1 Glagolitic17 Unknown2 Glagolitic7 Unknown1 Glagolitic2 Unknown1 ",
    "Glagolitic5 Unknown5 Cyrillic62 Unknown33 Cyrillic1 Unknown112 Nyiakeng_Puachue_Hmong45 ",
    "Unknown3 Nyiakeng_Puachue_Hmong14 Unknown2 Nyiakeng_Puachue_Hmong10 Unknown4 ",
    "Nyiakeng_Puachue_Hmong2 Unknown320 Toto31 Unknown17 Wancho58 Unknown5 Wancho1 Unknown464 ",
    "Nag_Mundari42 Unknown214 Ol_Onal43 Unknown4 Ol_Onal1 Unknown192 Tai_Yo31 Unknown1 ",
    "Tai_Yo22 Unknown8 Tai_Yo2 Unknown224 Ethiopic7 Unknown1 Ethiopic4 Unknown1 Ethiopic2 ",
    "Unknown1 Ethiopic15 Unknown1 Mende_Kikakui197 Unknown2 Mende_Kikakui16 Unknown41 Adlam76 ",
    "Unknown4 Adlam10 Unknown4 Adlam2 Unknown785 Common68 Unknown76 Common61 Unknown194 ",
    "Arabic4 Unknown1 Arabic27 Unknown1 Arabic2 Unknown1 Arabic1 Unknown2 Arabic1 Unknown1 ",
    "Arabic10 Unknown1 Arabic4 Unknown1 Arabic1 Unknown1 Arabic1 Unknown6 Arabic1 Unknown4 ",
    "Arabic1 Unknown1 Arabic1 Unknown1 Arabic1 Unknown1 Arabic3 Unknown1 Arabic2 Unknown1 ",
    "Arabic1 Unknown2 Arabic1 Unknown1 Arabic1 Unknown1 Arabic1 Unknown1 Arabic1 Unknown1 ",
    "Arabic1 Unknown1 Arabic2 Unknown1 Arabic1 Unknown2 Arabic4 Unknown1 Arabic7 Unknown1 ",
    "Arabic4 Unknown1 Arabic4 Unknown1 Arabic1 Unknown1 Arabic10 Unknown1 Arabic17 Unknown5 ",
    "Arabic3 Unknown1 Arabic5 Unknown1 Arabic17 Unknown52 Arabic2 Unknown270 Common44 Unknown4 ",
    "Common100 Unknown12 Common15 Unknown2 Common15 Unknown1 Common15 Unknown1 Common37 ",
    "Unknown10 Common174 Unknown56 Common26 Hiragana1 Common2 Unknown13 Common44 Unknown4 ",
    "Common9 Unknown7 Common2 Unknown14 Common6 Unknown154 Common985 Unknown3 Common17 ",
    "Unknown3 Common13 Unknown3 Common218 Unknown6 Common12 Unknown4 Common1 Unknown15 ",
    "Common12 Unknown4 Common56 Unknown8 Common10 Unknown6 Common40 Unknown8 Common30 Unknown2 ",
    "Common12 Unknown4 Common2 Unknown14 Common9 Unknown39 Common344 Unknown8 Common14 ",
    "Unknown2 Common13 Unknown3 Common11 Unknown3 Common57 Unknown1 Common1 Unknown4 Common16 ",
    "Unknown2 Common12 Unknown4 Common10 Unknown7 Common147 Unknown1 Common103 Unknown1029 ",
    "Han42720 Unknown32 Han4382 Unknown2 Han5774 Unknown2 Han7473 Unknown15 Han622 Unknown2466 ",
    "Han542 Unknown1506 Han4939 Unknown5 Han8490 Unknown707463 Common1 Unknown30 Common96 ",
    "Unknown128 Inherited240 Unknown196112"]

/-- The script a character belongs to. -/
def writingSystem (c : Char) : String := (writingSystemRuns.at? c.toNat).getD "Unknown"

/-- The scripts that some character belongs to. -/
def writingSystems : List String :=
  (writingSystemRuns.entries.toList.map Prod.snd).eraseDups

end Scrape.Text
