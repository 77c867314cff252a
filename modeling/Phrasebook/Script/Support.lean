namespace Phrasebook.Script

/-- Names by which generated code refers to the text manager and to the functions of the support
code: switches, plain texts, encoding, wrapping, raw values, property paths and format strings. -/
def supportNames : String := "m,sw,dv,e,af,val,rp,sf"

def supportLines : List String :=
  ["var Glot=Glot||\x7b\x7d;",
   "(function(G)\x7b",
   "function val(v)\x7breturn v!=null&&v._glot?v.val:v;\x7d",
   "function wrap(v)\x7breturn v!=null&&v._glot?v:\x7b_glot:true,val:v\x7d;\x7d",
   "function html(s)\x7breturn (\"\"+s).replace(/&/g,\"&amp;\").replace(/</g,\"&lt;" ++
     "\").replace(/>/g,\"&gt;\").replace(/\"/g,\"&quot;\").replace(/'/g,\"&#39;\");\x7d",
   "function plain(v)\x7bv=val(v);if(v==null)return \"\";if(Array.isArray(v))\x7bvar a=[];" ++
     "for(var i=0;i<v.length;i++)a.push(plain(v[i]));return a.join(\", \");\x7d" ++
     "return \"\"+v;\x7d",
   "function dv(v)\x7breturn v!=null&&v._glot&&v.defaultFormat?v.defaultFormat(v):plain(v)" ++
     ";\x7d",
   "function span(ms,p)\x7bvar t=\x7btotaldays:864e5,totalhours:36e5,totalminutes:6e4," ++
     "totalseconds:1e3,totalmilliseconds:1\x7d;if(p in t)return ms/t[p];",
   "var u=\x7bdays:[864e5,Infinity],hours:[36e5,24],minutes:[6e4,60],seconds:[1e3,60]," ++
     "milliseconds:[1,1e3]\x7d;if(p in u)return Math.floor(ms/u[p][0])%u[p][1];return null;" ++
     "\x7d",
   "function rp(o,ps)\x7bvar v=val(o);for(var i=0;i<ps.length&&v!=null;" ++
     "i++)\x7bvar l=ps[i].toLowerCase(),n=null;",
   "if(typeof v===\"object\"&&!Array.isArray(v))\x7bfor(var k in v)if(k.toLowerCase()===l)" ++
     "\x7bn=val(v[k]);break;\x7d\x7d",
   "if(n==null&&(l===\"length\"||l===\"count\")&&(typeof v===\"string\"||Array.isArray(v))" ++
     ")n=v.length;",
   "if(n==null&&typeof v===\"number\")n=span(v,l);",
   "v=n;\x7dreturn v;\x7d",
   "function Params(args,ns)\x7bvar layers=[\x7b\x7d];" ++
     "for(var k in args)if(Object.prototype.hasOwnProperty.call(args," ++
     "k))layers[0][k.toLowerCase()]=args[k];",
   "return \x7bn:ns,g:function(n)\x7bn=n.toLowerCase();for(var i=layers.length-1;i>=0;" ++
     "i--)if(n in layers[i])return layers[i][n];return null;\x7d,",
   "s:function(n,v)\x7blayers[layers.length-1][n.toLowerCase()]=v;\x7d," ++
     "push:function()\x7blayers.push(\x7b\x7d);\x7d,pop:function()\x7blayers.pop();\x7d\x7d;" ++
     "\x7d",
   "function sw(c,v,none,format,cases)\x7bvar x=val(v);if(x==null)return none?none():\"\";" ++
     "c.push();var r;",
   "try\x7bif(Array.isArray(x))\x7bvar parts=[];for(var i=0;i<x.length;" ++
     "i++)\x7bvar item=wrap(x[i]);" ++
     "if(v.defaultFormat&&!item.defaultFormat)item=\x7b_glot:true,val:item.val," ++
     "defaultFormat:v.defaultFormat\x7d;",
   "c.s(\"#\",format?\x7b_glot:true,val:format(item),unencoded:true\x7d:item);" ++
     "c.s(\"#Index\",i+1);parts.push(cases(i,i-x.length));\x7dr=parts.join(\"\");\x7d",
   "else\x7bc.s(\"#\",format?\x7b_glot:true,val:format(v),unencoded:true\x7d:v);" ++
     "r=cases(x);\x7d\x7dfinally\x7bc.pop();\x7dreturn r;\x7d",
   "G.TextManager=function(ns0,culture,encode,factory)\x7b",
   "var e=encode?function(s)\x7breturn s==null?\"\":html(s);\x7d" ++
     ":function(s)\x7breturn s==null?\"\":\"\"+s;\x7d;",
   "function af(v,f,enc)\x7bif(v!=null&&v._glot)\x7bif(v.unencoded)return f;" ++
     "if(v.template!=null)return v.template.split(\"\x7b#\x7d\").join(e(f));\x7d" ++
     "return enc?e(f):f;\x7d",
   "function sf(f,v)\x7bif(typeof v!==\"number\")return plain(v);" ++
     "var p=/^([NnFfPpDd])(\\d*)$/.exec(f);if(!p)return \"\"+v;",
   "var l=p[1].toUpperCase(),d=p[2]===\"\"?(l===\"D\"?0:2):+p[2];",
   "if(l===\"D\")\x7bvar s=\"\"+Math.abs(Math.trunc(v));while(s.length<d)s=\"0\"+s;" ++
     "return (v<0?\"-\":\"\")+s;\x7d",
   "var o=\x7bminimumFractionDigits:d,maximumFractionDigits:d,useGrouping:l!==\"F\"\x7d;" ++
     "if(l===\"P\")o.style=\"percent\";",
   "return new Intl.NumberFormat(culture.name||undefined,o).format(v);\x7d",
   "var texts,m=\x7bculture:culture\x7d;",
   "m.unencoded=function(v)\x7breturn v==null?null:\x7b_glot:true,val:v,unencoded:true\x7d" ++
     ";\x7d;",
   "m.withFormat=function(v,f)\x7bvar w=wrap(v);return \x7b_glot:true,val:w.val," ++
     "unencoded:w.unencoded,template:w.template," ++
     "defaultFormat:function(x)\x7breturn f(val(x));\x7d\x7d;\x7d;",
   "m.get=function(key,args,ns)\x7bns=ns==null?ns0:ns;var q=ns===ns0?key:ns+\"__\"+key;" ++
     "var t=texts[\"1\"+q];",
   "if(t)return t(Params(args||\x7b\x7d,ns));t=texts[\"0\"+q];return t==null?null:e(t);" ++
     "\x7d;",
   "texts=factory(m,sw,dv,e,af,val,rp,sf);",
   "return m;\x7d;",
   "\x7d)(Glot);"]

def support : String :=
  String.join (supportLines.map (· ++ "\n"))

end Phrasebook.Script
